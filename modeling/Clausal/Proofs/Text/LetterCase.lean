import Clausal.Text.LetterCase
import Mathlib.Data.List.Chain
import Mathlib.Data.List.TakeWhile

/-!
# Upper and lower case exclude each other

No character is both upper and lower case. The two tables are compared in one walk along both of them,
which is enough because each of them is in order; comparing each range with each other one would take
several hundred times as many steps.
-/
namespace Clausal.Text

namespace CodeRanges

variable {rs qs : CodeRanges}

/-- The one range begins no later than the other. -/
abbrev NoLater (r q : Nat × Nat) : Prop :=
  r.1 ≤ q.1

instance : Trans NoLater NoLater NoLater :=
  ⟨Nat.le_trans⟩

/-- The ranges come in the order of their lowest code points. -/
def Ordered (rs : CodeRanges) : Prop :=
  rs.Pairwise NoLater

/-- Neighbours decide about the order. -/
instance (rs : CodeRanges) : Decidable rs.Ordered :=
  decidable_of_iff (rs.IsChain NoLater) List.isChain_iff_pairwise

/-- Walks along two tables: each range of the first one is met with what is left of the second one when
the ranges that lie wholly below are dropped. -/
def apart : CodeRanges → CodeRanges → Bool
  | [], _ => true
  | r :: rs, qs =>
    let left := qs.dropWhile fun q => q.2 < r.1
    left.head?.all (fun q => r.2 < q.1) && apart rs left

/-- If the first range of a table lies above, so does all of the table. -/
theorem Ordered.above {n : Nat} (h : qs.Ordered) (hhead : qs.head?.all (fun q => n < q.1) = true) :
    ∀ q ∈ qs, n < q.1 := by
  cases qs with
  | nil => exact nofun
  | cons q₁ qs =>
    have hq₁ : n < q₁.1 := of_decide_eq_true hhead
    intro q hq
    rcases List.mem_cons.mp hq with rfl | hq
    · exact hq₁
    · exact Nat.lt_of_lt_of_le hq₁ ((List.pairwise_cons.mp h).1 q hq)

theorem disjoint_of_apart (hrs : rs.Ordered) (hqs : qs.Ordered) (h : apart rs qs = true) :
    ∀ r ∈ rs, ∀ q ∈ qs, q.2 < r.1 ∨ r.2 < q.1 := by
  induction rs generalizing qs with
  | nil => exact nofun
  | cons r rs ih =>
    let below (q : Nat × Nat) : Bool := q.2 < r.1
    obtain ⟨hhead, hrest⟩ := Bool.and_eq_true_iff.mp h
    obtain ⟨hfirst, hrs⟩ := List.pairwise_cons.mp hrs
    have hleft : Ordered (qs.dropWhile below) := hqs.sublist (List.dropWhile_sublist below)
    intro r' hr' q hq
    rw [← List.takeWhile_append_dropWhile (p := below) (l := qs), List.mem_append] at hq
    rcases hq with hq | hq
    · -- what is dropped for one range lies below all the ranges behind it, too
      have hbelow : q.2 < r.1 := of_decide_eq_true (List.mem_takeWhile_imp (p := below) hq)
      rcases List.mem_cons.mp hr' with rfl | hr'
      · exact .inl hbelow
      · exact .inl (Nat.lt_of_lt_of_le hbelow (hfirst r' hr'))
    · rcases List.mem_cons.mp hr' with rfl | hr'
      · exact .inr (hleft.above hhead q hq)
      · exact ih hrs hleft hrest r' hr' q hq

theorem contains_iff {c : Char} : rs.contains c = true ↔ ∃ r ∈ rs, r.1 ≤ c.toNat ∧ c.toNat ≤ r.2 := by
  simp only [contains, List.any_eq_true, Bool.and_eq_true, decide_eq_true_eq]

end CodeRanges

open CodeRanges

theorem isUppercase_of_isLowercase {c : Char} (h : isLowercase c = true) : isUppercase c = false := by
  have hupper : uppercaseRanges.Ordered := by decide +kernel
  have hlower : lowercaseRanges.Ordered := by decide +kernel
  have hapart : apart uppercaseRanges lowercaseRanges = true := by decide +kernel
  refine Bool.eq_false_iff.mpr fun hc => ?_
  obtain ⟨r, hr, hrlow, hrhigh⟩ := contains_iff.mp hc
  obtain ⟨q, hq, hqlow, hqhigh⟩ := contains_iff.mp h
  rcases disjoint_of_apart hupper hlower hapart r hr q hq with h | h
  · omega
  · omega

end Clausal.Text
