import Clausal.Proofs.Config.TupleNames
import Clausal.Proofs.Substitution.Names
import Std.Data.String.ToNat

/-!
# Names tell variables apart

No two variables of a substitution have the same name. A variable of a program has the name by which the
program calls it, which starts with a lowercase character; the anonymous ones are numbered behind a
character that starts no name of a program, and no number is given out twice.
-/
namespace Clausal.Substitution

variable {s s' : Substitution} {t u : Ty} {r : Unification} {name : String} {i k : Nat}

/-! ## Names of anonymous variables -/

theorem freshName_injective : Function.Injective freshName := fun _ _ h =>
  Nat.repr_injective ((String.append_right_inj _).mp h)

theorem toList_freshName (k : Nat) : (freshName k).toList = '?' :: 't' :: (toString k).toList := by
  rw [freshName, String.toList_append]
  rfl

theorem checkVarName_freshName (k : Nat) :
    checkVarName (freshName k) = .error (.notLowercase (freshName k)) := by
  have hmark : Text.isLowercase '?' = false := by decide +kernel
  rw [checkVarName, toList_freshName]
  exact if_neg (Bool.eq_false_iff.mp hmark)

theorem checkConstrName_freshName (k : Nat) :
    checkConstrName (freshName k) = .error (.notUppercase (freshName k)) := by
  have hmark : Text.isUppercase '?' = false := Text.isUppercase_of_lt (by decide)
  have hdot : '.' ∉ (freshName k).toList := by
    rw [toList_freshName]
    intro h
    rcases List.mem_cons.mp h with h | h
    · cases h
    rcases List.mem_cons.mp h with h | h
    · cases h
    · cases isDigit_of_mem_toString h
  rw [checkConstrName, lastSegment_of_not_mem hdot, toList_freshName]
  exact if_neg (Bool.eq_false_iff.mp hmark)

/-! ## Distinct names -/

structure Distinct (s : Substitution) : Prop where
  nodup : s.names.Nodup
  /-- A program can call the variable by its name, or its number was given out. -/
  spelled : ∀ n ∈ s.names, checkVarName n = .ok () ∨ ∃ k < s.freshCount, n = freshName k

theorem distinct_empty : Distinct {} where
  nodup := List.nodup_nil
  spelled := List.forall_mem_nil _

/-- Only the names and the count of the anonymous variables matter. -/
theorem Distinct.of_eq (h : s.Distinct) (hnames : s'.names = s.names)
    (hcount : s'.freshCount = s.freshCount) : s'.Distinct where
  nodup := hnames ▸ h.nodup
  spelled := by
    rw [hnames, hcount]
    exact h.spelled

theorem Distinct.add (h : s.Distinct) (hname : checkVarName name = .ok ()) (hnew : name ∉ s.names) :
    (s.add name).2.Distinct where
  nodup := by
    rw [names_add, ← List.concat_eq_append]
    exact h.nodup.concat hnew
  spelled := by
    rw [names_add]
    intro n hn
    rcases List.mem_append.mp hn with hn | hn
    · exact h.spelled n hn
    · rw [List.mem_singleton.mp hn]
      exact .inl hname

theorem Distinct.freshName_not_mem (h : s.Distinct) (hk : s.freshCount ≤ k) : freshName k ∉ s.names := by
  intro hmem
  rcases h.spelled _ hmem with hname | ⟨j, hj, he⟩
  · rw [checkVarName_freshName] at hname
    cases hname
  · have hkj := freshName_injective he
    omega

theorem Distinct.fresh (h : s.Distinct) : s.fresh.2.Distinct where
  nodup := by
    rw [names_fresh, ← List.concat_eq_append]
    exact h.nodup.concat (h.freshName_not_mem le_rfl)
  spelled := by
    have hcount : s.fresh.2.freshCount = s.freshCount + 1 := rfl
    rw [names_fresh, hcount]
    intro n hn
    rcases List.mem_append.mp hn with hn | hn
    · rcases h.spelled n hn with hname | ⟨j, hj, he⟩
      · exact .inl hname
      · exact .inr ⟨j, Nat.lt_succ_of_lt hj, he⟩
    · exact .inr ⟨s.freshCount, Nat.lt_succ_self _, List.mem_singleton.mp hn⟩

theorem Distinct.freshFor (h : s.Distinct) (vs : List Var) : (s.freshFor vs).2.Distinct := by
  induction vs generalizing s with
  | nil => exact h
  | cons v vs ih => exact ih h.fresh

/-- A unification gives out no number. -/
theorem Unifies.freshCount_eq (h : Unifies s t u r s') : s'.freshCount = s.freshCount := by
  have hlink (s : Substitution) (v w : Var) : (s.link v w).freshCount = s.freshCount := by
    rw [Substitution.link]
    split_ifs <;> rfl
  induction h with
  | chaseLeft _ _ ih => exact ih
  | chaseRight _ _ _ ih => exact ih
  | link _ _ _ => exact hlink ..
  | bindLeft _ _ _ => rfl
  | bindRight _ _ _ => rfl
  | same _ _ _ => rfl
  | circularLeft _ _ _ => rfl
  | circularRight _ _ _ => rfl
  | named => rfl
  | clash _ => rfl
  | fn _ _ ihd ihc => exact ihc.trans ihd
  | fnDomain _ _ ihd => exact ihd
  | fnCodomain _ _ _ ihd ihc => exact ihc.trans ihd

theorem freshCount_unify : (s.unify t u).2.freshCount = s.freshCount := by
  rw [unify]
  cases hrun : unifyWithin (s.steps t u) t u s with
  | none => rfl
  | some answer => exact (unifies_of_unifyWithin hrun).freshCount_eq

theorem Distinct.unify (h : s.Distinct) (t u : Ty) : (s.unify t u).2.Distinct :=
  h.of_eq names_unify freshCount_unify

/-! ## Variables by their names -/

/-- A program calls the variable that has the name. -/
theorem Distinct.var?_eq (h : s.Distinct) (hname : checkVarName name = .ok ())
    (hi : s.names[i]? = some name) : s.var? name = .ok (.var ⟨i, name⟩, s) := by
  have hfind : s.names.findIdx? (· == name) = some i := by
    obtain ⟨hlt, hget⟩ := List.getElem?_eq_some_iff.mp hi
    refine List.findIdx?_eq_some_iff_getElem.mpr ⟨hlt, beq_iff_eq.mpr hget, fun j hj => ?_⟩
    have hne : s.names[j] ≠ s.names[i] := fun he =>
      Nat.ne_of_lt hj ((h.nodup.getElem_inj_iff).mp he)
    rw [hget] at hne
    simpa using hne
  rw [var?, hname, findIdx?_cells, hfind]
  rfl

theorem Distinct.var? (h : s.Distinct) (hv : s.var? name = .ok (t, s')) : s'.Distinct := by
  cases hname : checkVarName name with
  | error e =>
    rw [Substitution.var?, hname] at hv
    cases hv
  | ok _ =>
    by_cases hmem : name ∈ s.names
    · obtain ⟨i, hi⟩ := List.mem_iff_getElem?.mp hmem
      rw [h.var?_eq hname hi] at hv
      cases hv
      exact h
    · rw [var?_of_not_mem hname hmem] at hv
      cases hv
      exact h.add hname hmem

theorem Operation.distinct (h : Operation s s') (hs : s.Distinct) : s'.Distinct := by
  cases h with
  | var h => exact hs.var? h
  | fresh => exact hs.fresh
  | unify _ _ => exact hs.unify _ _
  | instantiate _ => exact hs.freshFor _

theorem Reachable.distinct (h : Reachable s) : s.Distinct := by
  induction h with
  | refl => exact distinct_empty
  | tail _ hop ih => exact hop.distinct ih

end Clausal.Substitution
