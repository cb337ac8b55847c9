import Clausal.Proofs.Ty.Traversal
import Mathlib.Data.List.Nodup

/-!
# The variables of a type

`vars` lists the variables that occur in a type, in the order of their first occurrences and so each of them
once. Types can be put in for variables by their number in this list.
-/
namespace Clausal.Ty

variable {α β : Type} [BEq α] [LawfulBEq α] [BEq β] [LawfulBEq β] {v w : Var} {t : Ty}

theorem mem_vars : v ∈ t.vars ↔ v ∈ t.occurrences :=
  List.mem_eraseDups

/-- Of two members that are kept, the one that comes first came first before. -/
theorem idxOf_lt_of_filter {p : α → Bool} {l : List α} {a b : α} (ha : p a = true) (hb : p b = true)
    (h : (l.filter p).idxOf a < (l.filter p).idxOf b) : l.idxOf a < l.idxOf b := by
  induction l with
  | nil => exact absurd h (Nat.lt_irrefl _)
  | cons x l ih =>
    by_cases hx : p x = true
    · rw [List.filter_cons_of_pos hx, List.idxOf_cons, List.idxOf_cons] at h
      rw [List.idxOf_cons, List.idxOf_cons]
      cases hxa : x == a <;> cases hxb : x == b <;> simp [hxa, hxb] at h ⊢
      exact ih h
    · have hne {c : α} (hc : p c = true) : (x == c) = false :=
        beq_false_of_ne fun he => hx (he ▸ hc)
      rw [List.filter_cons_of_neg hx] at h
      rw [List.idxOf_cons, List.idxOf_cons, hne ha, hne hb]
      exact Nat.succ_lt_succ (ih h)

theorem pairwise_eraseDups : (l : List α) → l.eraseDups.Pairwise fun a b => l.idxOf a < l.idxOf b
  | [] => List.Pairwise.nil
  | x :: l => by
    have hkept {b : α} (hb : b ∈ (l.filter fun c => !c == x).eraseDups) : (!b == x) = true :=
      (List.mem_filter.mp (List.mem_eraseDups.mp hb)).2
    have hne {b : α} (hb : b ∈ (l.filter fun c => !c == x).eraseDups) : (x == b) = false :=
      beq_false_of_ne fun he => by simpa [he] using hkept hb
    rw [List.eraseDups_cons, List.pairwise_cons]
    constructor
    · intro b hb
      rw [List.idxOf_cons_self, List.idxOf_cons, hne hb]
      exact Nat.succ_pos _
    · refine (pairwise_eraseDups (l.filter fun c => !c == x)).imp_of_mem fun {a b} ha hb hab => ?_
      rw [List.idxOf_cons, List.idxOf_cons, hne ha, hne hb]
      exact Nat.succ_lt_succ (idxOf_lt_of_filter (hkept ha) (hkept hb) hab)
termination_by l => l.length
decreasing_by exact Nat.lt_succ_of_le (List.length_filter_le _ _)

theorem nodup_eraseDups (l : List α) : l.eraseDups.Nodup := by
  refine (pairwise_eraseDups l).imp fun {a b} hlt he => ?_
  rw [he] at hlt
  exact Nat.lt_irrefl _ hlt

theorem eraseDups_of_nodup {l : List α} (h : l.Nodup) : l.eraseDups = l := by
  induction l with
  | nil => rfl
  | cons x l ih =>
    obtain ⟨hx, hl⟩ := List.nodup_cons.mp h
    have hkept : l.filter (fun y => !y == x) = l := List.filter_eq_self.mpr fun y hy => by
      have hne : y ≠ x := fun he => hx (he ▸ hy)
      simpa using hne
    rw [List.eraseDups_cons, hkept, ih hl]

theorem eraseDups_eraseDups_append (l l' : List α) :
    (l.eraseDups ++ l').eraseDups = (l ++ l').eraseDups := by
  rw [List.eraseDups_append, List.eraseDups_append, eraseDups_of_nodup (nodup_eraseDups l)]
  simp only [List.removeAll, List.elem_eq_contains, List.contains_eq_mem, List.mem_eraseDups]

theorem eraseDups_append_of_subset {l l' : List α} (hl : l.Nodup) (h : l' ⊆ l) :
    (l ++ l').eraseDups = l := by
  have hnone : l'.removeAll l = [] := List.filter_eq_nil_iff.mpr fun a ha => by simpa using h ha
  rw [List.eraseDups_append, eraseDups_of_nodup hl, hnone, List.eraseDups_nil, List.append_nil]

theorem eraseDups_append_of_disjoint {l l' : List α} (hl : l.Nodup) (h : ∀ a ∈ l', a ∉ l) :
    (l ++ l').eraseDups = l ++ l'.eraseDups := by
  have hkept : l'.removeAll l = l' :=
    List.filter_eq_self.mpr fun a ha => by simpa using h a ha
  rw [List.eraseDups_append, eraseDups_of_nodup hl, hkept]

theorem eraseDups_map {f : α → β} : (l : List α) → (∀ a ∈ l, ∀ b ∈ l, f a = f b → a = b) →
    (l.map f).eraseDups = l.eraseDups.map f
  | [], _ => rfl
  | x :: l, hf => by
    have hsame : (l.map f).filter (fun b => !b == f x) = (l.filter fun a => !a == x).map f := by
      rw [List.filter_map]
      refine congrArg (List.map f) (List.filter_congr fun a ha => ?_)
      have hiff : f a = f x ↔ a = x :=
        ⟨hf a (List.mem_cons_of_mem x ha) x List.mem_cons_self, congrArg f⟩
      exact congrArg not (Bool.eq_iff_iff.mpr (by simpa using hiff))
    have hkept : ∀ a ∈ l.filter (fun a => !a == x), a ∈ x :: l := fun a ha =>
      List.mem_cons_of_mem x (List.mem_filter.mp ha).1
    rw [List.map_cons, List.eraseDups_cons, List.eraseDups_cons, List.map_cons, hsame,
      eraseDups_map _ fun a ha b hb => hf a (hkept a ha) b (hkept b hb)]
termination_by l => l.length
decreasing_by exact Nat.lt_succ_of_le (List.length_filter_le _ _)

/-- The variables come in the order of their first occurrences. -/
theorem vars_pairwise (t : Ty) :
    t.vars.Pairwise fun v w => t.occurrences.idxOf v < t.occurrences.idxOf w :=
  pairwise_eraseDups t.occurrences

/-- Where different numbers stand for different variables, variables are renamed by their number. -/
theorem renames_idxOf {f : Nat → Var} (hf : Function.Injective f) (t : Ty) :
    Renames (fun v => .var (f (t.vars.idxOf v))) t := by
  intro v hv
  refine ⟨⟨_, rfl⟩, fun w hw he => ?_⟩
  exact (List.idxOf_inj (mem_vars.mpr hv)).mp (hf (var.inj he))

theorem occurrences_bindVars_var (f : Var → Var) (t : Ty) :
    (t.bindVars fun v => .var (f v)).occurrences = t.occurrences.map f := by
  induction t using Ty.induction with
  | var v => rw [bindVars_var, occurrences, occurrences, List.map_singleton]
  | named c ts ih =>
    rw [bindVars_named, occurrences, occurrences, occurrencesAll_eq_flatMap, occurrencesAll_eq_flatMap,
      List.map_flatMap, List.flatMap_map]
    exact List.flatMap_congr ih
  | fn d c ihd ihc => rw [bindVars_fn, occurrences, occurrences, List.map_append, ihd, ihc]

/-- Variables that are renamed by their number keep their order. -/
theorem vars_bindVars_idxOf {f : Nat → Var} (hf : Function.Injective f) (t : Ty) :
    (t.bindVars fun v => .var (f (t.vars.idxOf v))).vars = (List.range t.vars.length).map f := by
  have hinj : ∀ v ∈ t.occurrences, ∀ w ∈ t.occurrences,
      f (t.vars.idxOf v) = f (t.vars.idxOf w) → v = w := fun v hv w _ he =>
    (List.idxOf_inj (mem_vars.mpr hv)).mp (hf he)
  have hnumbers : t.vars.map t.vars.idxOf = List.range t.vars.length :=
    List.ext_getElem (by simp) fun i hi hi' => by
      rw [List.getElem_map, List.getElem_range]
      exact (nodup_eraseDups t.occurrences).idxOf_getElem i _
  rw [vars, occurrences_bindVars_var, eraseDups_map _ hinj, ← hnumbers, List.map_map]
  rfl

end Clausal.Ty
