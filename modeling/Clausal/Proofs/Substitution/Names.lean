import Clausal.Proofs.Substitution.Evolution

/-!
# Names of variables

The names of the variables, in the order in which these were made, are only ever added to. A variable is
its place in this list: what a program calls by one name stays one variable, and is shown by that name,
whatever is unified and however it ends.
-/
namespace Clausal.Substitution

variable {s s' : Substitution} {v w : Var} {t u : Ty} {r : Unification}

/-- The names of all variables, in the order in which the variables were made. -/
def names (s : Substitution) : List String :=
  s.cells.toList.map (·.name)

theorem length_names : s.names.length = s.size := by
  rw [names, List.length_map, Array.length_toList, size]

theorem nameOf_eq_names (i : Nat) : s.nameOf i = s.names[i]?.getD "" := by
  rw [nameOf, names, List.getElem?_map, Array.getElem?_toList]

/-- The variable with a name is the first one that has it. -/
theorem findIdx?_cells (name : String) :
    s.cells.findIdx? (·.name == name) = s.names.findIdx? (· == name) := by
  rw [names, List.findIdx?_map]
  exact List.findIdx?_toArray _ s.cells.toList

/-- A name that no variable has gets a new one. -/
theorem var?_of_not_mem {name : String} (hname : checkVarName name = .ok ()) (h : name ∉ s.names) :
    s.var? name = .ok (.var (s.add name).1, (s.add name).2) := by
  have hnone : s.names.findIdx? (· == name) = none :=
    List.findIdx?_eq_none_iff.mpr fun n hn => beq_false_of_ne fun he => h (he ▸ hn)
  rw [var?, hname, findIdx?_cells, hnone]
  rfl

/-! ## What each operation adds -/

theorem names_add (name : String) : (s.add name).2.names = s.names ++ [name] := by
  simp only [names, add, Array.toList_push, List.map_append, List.map_cons, List.map_nil]

theorem names_fresh : s.fresh.2.names = s.names ++ [freshName s.freshCount] :=
  names_add _

theorem names_bind : (s.bind v t).names = s.names := by
  refine List.ext_getElem? fun i => ?_
  simp only [names, bind, List.getElem?_map, Array.getElem?_toList, Array.getElem?_modify]
  split
  · rw [Option.map_map]
    rfl
  · rfl

theorem names_absorb (winner loser rank : Nat) : (s.absorb winner loser rank).names = s.names := by
  refine List.ext_getElem? fun i => ?_
  simp only [names, absorb, List.getElem?_map, Array.getElem?_toList, Array.getElem?_modify,
    Array.getElem?_map]
  split <;> cases s.cells[i]? <;> simp <;> split <;> rfl

theorem names_link : (s.link v w).names = s.names := by
  rw [link]
  split_ifs
  · rfl
  · exact names_absorb ..
  · exact names_absorb ..
  · exact names_absorb ..

/-- A unification makes no variable and renames none, also where it fails. -/
theorem Unifies.names_eq (h : Unifies s t u r s') : s'.names = s.names := by
  induction h with
  | chaseLeft _ _ ih => exact ih
  | chaseRight _ _ _ ih => exact ih
  | link _ _ _ => exact names_link
  | bindLeft _ _ _ => exact names_bind
  | bindRight _ _ _ => exact names_bind
  | same _ _ _ => rfl
  | circularLeft _ _ _ => rfl
  | circularRight _ _ _ => rfl
  | named => rfl
  | clash _ => rfl
  | fn _ _ ihd ihc => exact ihc.trans ihd
  | fnDomain _ _ ihd => exact ihd
  | fnCodomain _ _ _ ihd ihc => exact ihc.trans ihd

theorem names_unify : (s.unify t u).2.names = s.names := by
  rw [unify]
  cases hrun : unifyWithin (s.steps t u) t u s with
  | none => rfl
  | some answer => exact (unifies_of_unifyWithin hrun).names_eq

theorem names_freshFor (vs : List Var) : s.names <+: (s.freshFor vs).2.names := by
  induction vs generalizing s with
  | nil => exact List.prefix_rfl
  | cons v vs ih =>
    have hfresh : s.names <+: s.fresh.2.names := by
      rw [names_fresh]
      exact List.prefix_append ..
    exact hfresh.trans ih

/-! ## Names stay -/

theorem Operation.names_prefix (h : Operation s s') : s.names <+: s'.names := by
  cases h with
  | @var _ name _ h =>
    rcases eq_or_add_of_var? h with rfl | rfl
    · exact List.prefix_rfl
    · rw [names_add]
      exact List.prefix_append ..
  | fresh =>
    rw [names_fresh]
    exact List.prefix_append ..
  | unify _ _ =>
    rw [names_unify]
  | instantiate _ => exact names_freshFor _

theorem Evolves.names_prefix (h : Evolves s s') : s.names <+: s'.names := by
  induction h with
  | refl => exact List.prefix_rfl
  | tail _ hop ih => exact ih.trans hop.names_prefix

theorem Evolves.size_le (h : Evolves s s') : s.size ≤ s'.size := by
  rw [← length_names, ← length_names]
  exact h.names_prefix.length_le

theorem Evolves.nameOf_eq (h : Evolves s s') {i : Nat} (hi : i < s.size) : s'.nameOf i = s.nameOf i := by
  have hi : i < s.names.length := length_names ▸ hi
  have hkept : s'.names[i]? = some s.names[i] := List.prefix_iff_getElem?.mp h.names_prefix i hi
  rw [nameOf_eq_names, nameOf_eq_names, hkept, List.getElem?_eq_getElem hi]

/-- A variable that a name stands for is found by the name from then on, and nothing new is made. -/
theorem Evolves.var?_eq (h : Evolves s s') {name : String} (hv : s.var? name = .ok (t, s)) :
    s'.var? name = .ok (t, s') := by
  obtain ⟨added, hadded⟩ := h.names_prefix
  rw [var?, findIdx?_cells] at hv ⊢
  cases hname : checkVarName name with
  | error e =>
    rw [hname] at hv
    cases hv
  | ok _ =>
    rw [hname] at hv
    cases hfind : s.names.findIdx? (· == name) with
    | some i =>
      simp only [hfind] at hv
      have hfind' : s'.names.findIdx? (· == name) = some i := by
        rw [← hadded, List.findIdx?_append, hfind, Option.some_or]
      simp only [hfind']
      cases hv
      rfl
    | none =>
      -- a variable that has to be made makes the substitution larger
      simp only [hfind] at hv
      have heq : (s.add name).2 = s := (Prod.ext_iff.mp (Except.ok.inj hv)).2
      have hsize : s.size + 1 = s.size := (size_add name).symm.trans (congrArg size heq)
      exact absurd hsize (Nat.succ_ne_self _)

end Clausal.Substitution
