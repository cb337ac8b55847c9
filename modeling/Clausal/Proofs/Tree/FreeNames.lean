import Clausal.Reduction.Reducer
import Mathlib.Data.List.Basic

/-!
# Free names of trees

The symbols of a tree that no binding around them binds, and what these are in the trees that the
reducer puts together.
-/
namespace Clausal.Tree

mutual

/-- The symbols of a tree that are not bound in it. -/
def freeNames : Tree → List String
  | .literal _ => []
  | .symbol n => [n]
  | .builtin _ => []
  | .call callee args => freeNames callee ++ freeNamesAll args
  | .cond c t e => freeNames c ++ freeNames t ++ freeNames e
  | .letIn n value body => freeNames value ++ (freeNames body).filter (· ≠ n)
  | .access value _ _ => freeNames value
  | .isTag value _ => freeNames value
  | .fault _ => []

/-- The symbols of trees that are not bound in them. -/
def freeNamesAll : List Tree → List String
  | [] => []
  | t :: ts => freeNames t ++ freeNamesAll ts

end

variable {n : String} {body : Tree}

theorem mem_freeNames_letIn {m : String} {value : Tree} :
    n ∈ (letIn m value body).freeNames ↔ n ∈ value.freeNames ∨ n ∈ body.freeNames ∧ n ≠ m := by
  rw [freeNames, List.mem_append, List.mem_filter, decide_eq_true_eq]

theorem mem_freeNamesAll {ts : List Tree} : n ∈ freeNamesAll ts ↔ ∃ t ∈ ts, n ∈ t.freeNames := by
  induction ts with
  | nil => simp [freeNamesAll]
  | cons t ts ih => simp only [freeNamesAll, List.mem_append, ih, List.exists_mem_cons_iff]

theorem mem_freeNames_letAll {bs : List (String × Tree)} (h : n ∉ bs.map Prod.fst) :
    n ∈ (letAll bs body).freeNames ↔ (∃ b ∈ bs, n ∈ b.2.freeNames) ∨ n ∈ body.freeNames := by
  induction bs with
  | nil => simp [letAll]
  | cons b bs ih =>
    rw [List.map_cons, List.mem_cons, not_or] at h
    have hcons : letAll (b :: bs) body = .letIn b.1 b.2 (letAll bs body) := rfl
    rw [hcons, mem_freeNames_letIn, ih h.2, and_iff_left h.1, List.exists_mem_cons_iff, or_assoc]

/-- What is free under bindings is free in a value, or in the body and not bound. -/
theorem of_mem_freeNames_letAll {bs : List (String × Tree)} (h : n ∈ (letAll bs body).freeNames) :
    (∃ b ∈ bs, n ∈ b.2.freeNames) ∨ n ∈ body.freeNames ∧ n ∉ bs.map Prod.fst := by
  induction bs with
  | nil => exact .inr ⟨h, List.not_mem_nil⟩
  | cons b bs ih =>
    have hcons : letAll (b :: bs) body = .letIn b.1 b.2 (letAll bs body) := rfl
    rw [hcons, mem_freeNames_letIn] at h
    rw [List.exists_mem_cons_iff, List.map_cons, List.mem_cons, not_or]
    rcases h with h | ⟨h, hne⟩
    · exact .inl (.inl h)
    · rcases ih h with h | ⟨h, hbs⟩
      · exact .inl (.inr h)
      · exact .inr ⟨h, hne, hbs⟩

theorem mem_freeNames_condition {c : ClauseState} :
    n ∈ c.condition.freeNames ↔ ∃ t ∈ c.conditions, n ∈ t.freeNames := by
  match hc : c.conditions with
  | [] =>
    rw [ClauseState.condition, hc]
    simp [freeNames, freeNamesAll]
  | [only] =>
    rw [ClauseState.condition, hc]
    simp
  | t :: t' :: ts =>
    rw [ClauseState.condition, hc, ← mem_freeNamesAll]
    simp [freeNames]

theorem mem_freeNames_chain_cons {fallback : Tree} {c : ClauseState} {cs : List ClauseState} :
    n ∈ (ClauseState.chain fallback (c :: cs)).freeNames ↔
      (∃ t ∈ c.conditions, n ∈ t.freeNames) ∨ n ∈ c.toTree.freeNames ∨
        c.conditions ≠ [] ∧ n ∈ (ClauseState.chain fallback cs).freeNames := by
  rw [ClauseState.chain]
  by_cases h : c.conditions = []
  · simp [h]
  · have hne : ¬ c.conditions.isEmpty = true := by rwa [List.isEmpty_iff]
    rw [if_neg hne, freeNames, List.mem_append, List.mem_append, mem_freeNames_condition, or_assoc,
      and_iff_right h]

end Clausal.Tree
