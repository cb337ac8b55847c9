import Clausal.Proofs.Unification.Termination

/-!
# Reachable substitutions

The operations that change a substitution make variables or unify. Whatever order they come in,
failures included, the invariant of `Valid` holds and the substitution only grows.
-/
namespace Clausal.Substitution

/-- One operation on a substitution; the types handed to it are made of its variables. -/
inductive Operation : Substitution → Substitution → Prop where
  | var {s s' name t} : s.var? name = .ok (t, s') → Operation s s'
  | fresh {s} : Operation s s.fresh.2
  | unify {s t u} : t.Over s → u.Over s → Operation s (s.unify t u).2
  | instantiate {s t} : t.Over s → Operation s (s.instantiate t).2

/-- Any number of operations. -/
abbrev Evolves : Substitution → Substitution → Prop :=
  Relation.ReflTransGen Operation

/-- What operations can make of a new substitution. -/
def Reachable (s : Substitution) : Prop :=
  Evolves {} s

variable {s s' : Substitution} {t u : Ty}

theorem eq_or_add_of_var? {name : String} (h : s.var? name = .ok (t, s')) :
    s' = s ∨ s' = (s.add name).2 := by
  rw [var?] at h
  cases hname : checkVarName name with
  | error e =>
    rw [hname] at h
    cases h
  | ok _ =>
    rw [hname] at h
    cases hfind : s.cells.findIdx? (·.name == name) with
    | some i =>
      simp only [hfind] at h
      cases h
      exact .inl rfl
    | none =>
      simp only [hfind] at h
      cases h
      exact .inr rfl

theorem freshFor_spec (vs : List Var) (hs : s.Valid) :
    (s.freshFor vs).2.Valid ∧ s.Grows (s.freshFor vs).2 := by
  induction vs generalizing s with
  | nil => exact ⟨hs, .refl s⟩
  | cons v vs ih =>
    obtain ⟨hvalid, hgrows⟩ := ih hs.fresh
    exact ⟨hvalid, grows_fresh.trans hgrows⟩

theorem Operation.spec (h : Operation s s') (hs : s.Valid) : s'.Valid ∧ s.Grows s' := by
  cases h with
  | @var _ name _ h =>
    rcases eq_or_add_of_var? h with rfl | rfl
    · exact ⟨hs, .refl _⟩
    · exact ⟨hs.add name, grows_add name⟩
  | fresh => exact ⟨hs.fresh, grows_fresh⟩
  | unify ht hu =>
    have h := (hs.unify_run ht hu).advances hs ht hu
    exact ⟨h.valid, h.grows⟩
  | instantiate ht => exact freshFor_spec _ hs

theorem Evolves.spec (h : Evolves s s') (hs : s.Valid) : s'.Valid ∧ s.Grows s' := by
  induction h with
  | refl => exact ⟨hs, .refl s⟩
  | tail _ hop ih =>
    obtain ⟨hvalid, hgrows⟩ := hop.spec ih.1
    exact ⟨hvalid, ih.2.trans hgrows⟩

theorem Reachable.valid (h : Reachable s) : s.Valid :=
  (Evolves.spec h valid_empty).1

theorem Evolves.valid (h : Evolves s s') (hs : s.Valid) : s'.Valid :=
  (h.spec hs).1

theorem Evolves.over (h : Evolves s s') (hs : s.Valid) (ht : t.Over s) : t.Over s' :=
  (h.spec hs).2.over ht

theorem over_fresh : s.fresh.1.Over s.fresh.2 := by
  refine over_var.mpr ?_
  rw [Has, size_fresh]
  exact Nat.lt_succ_self _

theorem mem_of_lookup {α β : Type} [BEq α] [LawfulBEq α] {l : List (α × β)} {a : α} {b : β}
    (h : l.lookup a = some b) : (a, b) ∈ l := by
  obtain ⟨l₁, l₂, rfl, -⟩ := List.lookup_eq_some_iff.mp h
  exact List.mem_append_right l₁ List.mem_cons_self

end Clausal.Substitution
