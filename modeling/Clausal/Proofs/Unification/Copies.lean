import Clausal.Proofs.Ty.Variables
import Clausal.Proofs.Unification.Isolation

/-!
# Copies of a type

A copy is the resolved type with its variables renamed, in the order of their first occurrences, to the
variables that are made next. Nothing else changes. As the variables of a copy are in no type there was,
what is found out about one copy says nothing about the type it was made from, nor about another copy.
-/
namespace Clausal.Substitution

variable {s s' s₁ : Substitution} {v : Var} {vs : List Var} {t u one : Ty} {others : List Ty}
  {kept : Set Nat}

/-! ## Variables made in a row -/

/-- The anonymous variable that will be made behind this many others. -/
def upcoming (s : Substitution) (i : Nat) : Var :=
  ⟨s.size + i, freshName (s.freshCount + i)⟩

theorem upcoming_injective (s : Substitution) : Function.Injective s.upcoming := by
  intro i j h
  exact Nat.add_left_cancel (congrArg Var.index h)

theorem not_has_upcoming (s : Substitution) (i : Nat) : ¬ s.Has (s.upcoming i) :=
  Nat.not_lt_of_le (Nat.le_add_right s.size i)

theorem fresh_upcoming (s : Substitution) (i : Nat) : s.fresh.2.upcoming i = s.upcoming (i + 1) := by
  have hcount : s.fresh.2.freshCount = s.freshCount + 1 := rfl
  rw [upcoming, upcoming, size_fresh, hcount, Nat.add_right_comm, Nat.add_assoc, Nat.add_right_comm,
    Nat.add_assoc]

theorem fresh_eq_upcoming (s : Substitution) : s.fresh.1 = .var (s.upcoming 0) :=
  rfl

theorem size_freshFor (s : Substitution) (vs : List Var) :
    (s.freshFor vs).2.size = s.size + vs.length := by
  induction vs generalizing s with
  | nil => rfl
  | cons v vs ih => rw [freshFor, ih, size_fresh, List.length_cons, Nat.add_right_comm, Nat.add_assoc]

theorem freshCount_freshFor (s : Substitution) (vs : List Var) :
    (s.freshFor vs).2.freshCount = s.freshCount + vs.length := by
  induction vs generalizing s with
  | nil => rfl
  | cons v vs ih =>
    have hcount : s.fresh.2.freshCount = s.freshCount + 1 := rfl
    rw [freshFor, ih, hcount, List.length_cons, Nat.add_right_comm, Nat.add_assoc]

theorem names_freshFor_eq (s : Substitution) (vs : List Var) :
    (s.freshFor vs).2.names = s.names ++ (List.range vs.length).map fun i => (s.upcoming i).name := by
  induction vs generalizing s with
  | nil => rw [freshFor, List.length_nil, List.range_zero, List.map_nil, List.append_nil]
  | cons v vs ih =>
    rw [freshFor, ih, names_fresh, List.length_cons, List.range_succ_eq_map, List.map_cons, List.map_map,
      List.append_assoc, List.singleton_append]
    simp only [fresh_upcoming, Function.comp_def]
    rfl

theorem rootIndex_freshFor (s : Substitution) (vs : List Var) (v : Var) :
    (s.freshFor vs).2.rootIndex v = s.rootIndex v := by
  induction vs generalizing s with
  | nil => rfl
  | cons w vs ih => rw [freshFor, ih, rootIndex_fresh]

theorem lookup_freshFor (s : Substitution) (vs : List Var) (v : Var) :
    (s.freshFor vs).2.lookup v = s.lookup v := by
  induction vs generalizing s with
  | nil => rfl
  | cons w vs ih => rw [freshFor, ih, lookup_fresh]

/-- A variable gets the new one with its number. -/
theorem copy_freshFor (s : Substitution) (h : v ∈ vs) :
    (s.freshFor vs).1.lookup v = some (.var (s.upcoming (vs.idxOf v))) := by
  induction vs generalizing s with
  | nil => cases h
  | cons w vs ih =>
    rw [freshFor, List.lookup_cons, List.idxOf_cons]
    by_cases he : v = w
    · subst he
      rw [beq_self_eq_true, cond_true, fresh_eq_upcoming]
    · rw [beq_false_of_ne he, beq_false_of_ne (Ne.symm he), cond_false, ← fresh_upcoming]
      exact ih s.fresh.2 ((List.mem_cons.mp h).resolve_left he)

theorem nameOf_upcoming {i : Nat} (hi : i < vs.length) :
    (s.freshFor vs).2.nameOf (s.size + i) = (s.upcoming i).name := by
  have hlen : s.names.length ≤ s.size + i := length_names ▸ Nat.le_add_right s.size i
  rw [nameOf_eq_names, names_freshFor_eq, List.getElem?_append_right hlen, length_names,
    Nat.add_sub_cancel_left, List.getElem?_map, List.getElem?_range hi, Option.map_some, Option.getD_some]

/-! ## One copy -/

/-- The type is copied, and nothing else happens. -/
structure Copied (s : Substitution) (t copy : Ty) (s' : Substitution) : Prop where
  /-- A variable that is left in the type is replaced, wherever it occurs, by the new one with its
  number. -/
  copy_eq : copy = (s.resolve t).bindVars fun v => .var (s.upcoming ((s.resolve t).vars.idxOf v))
  renames : Ty.Renames (fun v => .var (s.upcoming ((s.resolve t).vars.idxOf v))) (s.resolve t)
  numbered : (s.resolve t).vars.Pairwise fun v w =>
    (s.resolve t).occurrences.idxOf v < (s.resolve t).occurrences.idxOf w
  names_eq : s'.names = s.names ++ (List.range (s.resolve t).vars.length).map fun i => (s.upcoming i).name
  freshCount_eq : s'.freshCount = s.freshCount + (s.resolve t).vars.length
  rootIndex_eq : ∀ v, s'.rootIndex v = s.rootIndex v
  lookup_eq : ∀ v, s'.lookup v = s.lookup v
  /-- The variables of the copy are new, unbound and alone in their classes. -/
  new : ∀ v ∈ copy.occurrences, ¬ s.Has v ∧ s'.Has v ∧ s'.root v = v ∧ s'.lookup v = none
  unchanged : (s.resolve t).vars = [] → copy = s.resolve t ∧ s' = s
  /-- The copy and the type have no variable in common when they are resolved. -/
  apart : copy.Avoids (s'.leftIn t) s'

theorem instantiate_fst (s : Substitution) (t : Ty) : (s.instantiate t).1 =
    (s.resolve t).bindVars fun v => .var (s.upcoming ((s.resolve t).vars.idxOf v)) := by
  refine Ty.bindVars_congr fun v hv => ?_
  rw [copy_freshFor s (Ty.mem_vars.mpr hv), Option.getD_some]

theorem instantiate_snd (s : Substitution) (t : Ty) :
    (s.instantiate t).2 = (s.freshFor (s.resolve t).vars).2 :=
  rfl

theorem exists_upcoming_of_mem (h : v ∈ (s.instantiate t).1.occurrences) :
    ∃ i < (s.resolve t).vars.length, v = s.upcoming i := by
  rw [instantiate_fst] at h
  obtain ⟨w, hw, hv⟩ := Ty.mem_occurrences_bindVars.mp h
  exact ⟨_, List.idxOf_lt_length_of_mem (Ty.mem_vars.mpr hw), Ty.mem_occurrences_var.mp hv⟩

theorem new_of_mem_instantiate (h : v ∈ (s.instantiate t).1.occurrences) :
    ¬ s.Has v ∧ (s.instantiate t).2.Has v ∧ (s.instantiate t).2.root v = v ∧
      (s.instantiate t).2.lookup v = none := by
  obtain ⟨i, hi, rfl⟩ := exists_upcoming_of_mem h
  have hnew := s.not_has_upcoming i
  have hroot : (s.instantiate t).2.rootIndex (s.upcoming i) = s.size + i := by
    rw [instantiate_snd, rootIndex_freshFor, rootIndex_of_not_has hnew, upcoming]
  have hname : (s.instantiate t).2.nameOf (s.size + i) = (s.upcoming i).name := nameOf_upcoming hi
  refine ⟨hnew, ?_, ?_, ?_⟩
  · rw [instantiate_snd, Has, size_freshFor]
    exact Nat.add_lt_add_left hi s.size
  · rw [root, hroot, hname]
    rfl
  · rw [instantiate_snd, lookup_freshFor]
    exact Option.eq_none_iff_forall_ne_some.mpr fun b hb => hnew (has_of_lookup hb)

/-- A copy of one type changes nothing about another one. -/
theorem Valid.resolve_instantiate (hs : s.Valid) (ht : t.Over s) (hu : u.Over s) :
    (s.instantiate t).2.resolve u = s.resolve u :=
  have hspares : Spares Set.univ s (s.instantiate t).2 := hs.spares_freshFor _
  hspares.resolve_eq (.single (.instantiate ht)) hs hu fun _ _ => Set.mem_univ _

theorem Valid.leftIn_instantiate (hs : s.Valid) (ht : t.Over s) (hu : u.Over s) :
    (s.instantiate t).2.leftIn u = s.leftIn u := by
  rw [leftIn, leftIn, hs.resolve_instantiate ht hu]

/-- A copy is resolved as it is. -/
theorem resolve_copy (s : Substitution) (t : Ty) :
    (s.instantiate t).2.resolve (s.instantiate t).1 = (s.instantiate t).1 := by
  rw [resolve_eq_bindVars]
  refine Ty.bindVars_eq_self fun v hv => ?_
  obtain ⟨-, -, hroot, hnone⟩ := new_of_mem_instantiate hv
  rw [resolve_var_of_unbound hnone, hroot]

theorem Valid.copied (hs : s.Valid) (ht : t.Over s) :
    Copied s t (s.instantiate t).1 (s.instantiate t).2 where
  copy_eq := instantiate_fst s t
  renames := Ty.renames_idxOf s.upcoming_injective _
  numbered := Ty.vars_pairwise _
  names_eq := names_freshFor_eq s _
  freshCount_eq := freshCount_freshFor s _
  rootIndex_eq := rootIndex_freshFor s _
  lookup_eq := lookup_freshFor s _
  new _ hv := new_of_mem_instantiate hv
  unchanged h := by
    rw [instantiate_snd, h, freshFor, instantiate_fst]
    refine ⟨Ty.bindVars_eq_self fun v hv => ?_, rfl⟩
    rw [← Ty.mem_vars, h] at hv
    cases hv
  apart := by
    rw [hs.leftIn_instantiate ht ht]
    exact (hs.within_instantiate (hs.leftIn_lt ht)).avoids

/-! ## What copies do not say -/

/-- One type is unified with another one, from which some variables are kept out. -/
inductive Meets (kept : Set Nat) (one : Ty) : Substitution → Substitution → Prop where
  | left {a : Substitution} {x : Ty} : x.Within kept a → Meets kept one a (a.unify one x).2
  | right {a : Substitution} {x : Ty} : x.Within kept a → Meets kept one a (a.unify x one).2

theorem Meets.spares (h : Meets kept one s s') (hs : s.Valid) (hone : one.Within kept s) :
    Operation s s' ∧ Spares kept s s' := by
  cases h with
  | left hu =>
    exact ⟨.unify hone.known hu.known, ((hs.unify_run hone.known hu.known).spares hs hone hu).1⟩
  | right hu =>
    exact ⟨.unify hu.known hone.known, ((hs.unify_run hu.known hone.known).spares hs hu hone).1⟩

theorem spares_of_meets (h : Relation.ReflTransGen (Meets kept one) s s') (hs : s.Valid)
    (hone : one.Within kept s) : Evolves s s' ∧ Spares kept s s' := by
  induction h with
  | refl => exact ⟨.refl, .refl kept s⟩
  | tail _ hop ih =>
    obtain ⟨hevolves, hspares⟩ := ih
    obtain ⟨hoperation, hstep⟩ := hop.spares (hevolves.valid hs) (hspares.within one hone)
    exact ⟨hevolves.tail hoperation, hspares.trans hstep⟩

/-- The variables that are left in any of the types. -/
def leftInAll (s : Substitution) (ts : List Ty) : Set Nat :=
  { i | ∃ t ∈ ts, i ∈ s.leftIn t }

theorem Valid.leftInAll_lt (hs : s.Valid) (hover : ∀ t ∈ others, t.Over s) :
    ∀ i ∈ s.leftInAll others, i < s.size := by
  rintro i ⟨t, ht, hi⟩
  exact hs.leftIn_lt (hover t ht) i hi

theorem Valid.leftInAll_instantiate (hs : s.Valid) (ht : t.Over s) (hover : ∀ u ∈ others, u.Over s) :
    (s.instantiate t).2.leftInAll others = s.leftInAll others := by
  ext i
  refine exists_congr fun u => and_congr_right fun hu => ?_
  rw [hs.leftIn_instantiate ht (hover u hu)]

/-- However often one type is unified with types that have no variable in common with the others, these
resolve to the same as before. -/
def Undisturbed (s : Substitution) (one : Ty) (others : List Ty) : Prop :=
  ∀ s', Relation.ReflTransGen (Meets (s.leftInAll others) one) s s' →
    ∀ t ∈ others, s'.resolve t = s.resolve t

theorem Valid.undisturbed (hs : s.Valid) (hover : ∀ t ∈ others, t.Over s)
    (hone : one.Within (s.leftInAll others) s) : s.Undisturbed one others := by
  intro s' h t ht
  obtain ⟨hevolves, hspares⟩ := spares_of_meets h hs hone
  exact hspares.resolve_eq hevolves hs (hover t ht) fun v hv => ⟨t, ht, v, hv, rfl⟩

/-- A copy made later than some types can be unified without a change to these. -/
theorem Valid.undisturbed_by_copy (hs : s.Valid) (ht : t.Over s) (hover : ∀ u ∈ others, u.Over s) :
    (s.instantiate t).2.Undisturbed (s.instantiate t).1 others := by
  obtain ⟨hs', hgrows⟩ := (Operation.instantiate ht).spec hs
  refine hs'.undisturbed (fun u hu => hgrows.over (hover u hu)) ?_
  rw [hs.leftInAll_instantiate ht hover]
  exact hs.within_instantiate (hs.leftInAll_lt hover)

/-- A type that avoids the type that was copied can be unified without a change to that type and to the
copy. -/
theorem Valid.undisturbed_copy (hs : s.Valid) (ht : t.Over s) (hu : u.Over s)
    (hapart : u.Avoids (s.leftIn t) s) :
    (s.instantiate t).2.Undisturbed u [t, (s.instantiate t).1] := by
  obtain ⟨hs', hgrows⟩ := (Operation.instantiate ht).spec hs
  have hcopy : (s.instantiate t).1.Over (s.instantiate t).2 := fun v hv => (new_of_mem_instantiate hv).2.1
  refine hs'.undisturbed (List.forall_mem_cons.mpr ⟨hgrows.over ht, List.forall_mem_singleton.mpr hcopy⟩)
    ⟨hgrows.over hu, ?_⟩
  rintro v hv ⟨x, hx, hi⟩
  rw [hs.resolve_instantiate ht hu] at hv
  rcases List.mem_cons.mp hx with rfl | hx
  · rw [hs.leftIn_instantiate ht ht] at hi
    exact hapart v hv hi
  · -- what is left in the other type was there before the copy was made
    rw [List.mem_singleton.mp hx, leftIn, resolve_copy] at hi
    obtain ⟨w, hw, he⟩ := hi
    have hnew : ¬ s.Has w := (new_of_mem_instantiate hw).1
    rw [Has, he] at hnew
    exact hnew (hs.over_resolve hu v hv)

/-- A copy renames the variables that are left in a type to new ones, in their order, and changes nothing
else. A later copy of the type has no variable in common with the first one, and unifying it changes neither
the type nor the first copy, as long as it is unified with types that have no variable in common with these
two. The same holds of the first copy, if it did not get to share a variable with the type in between. -/
theorem instantiate_apart (hs : Reachable s) (ht : t.Over s) :
    let first := s.instantiate t
    Copied s t first.1 first.2 ∧
    ∀ s₁, Evolves first.2 s₁ →
      let second := s₁.instantiate t
      (∀ v ∈ first.1.occurrences, ∀ w ∈ second.1.occurrences, v.index ≠ w.index) ∧
      second.2.Undisturbed second.1 [t, first.1] ∧
      (first.1.Avoids (s₁.leftIn t) s₁ → second.2.Undisturbed first.1 [t, second.1]) := by
  intro first
  refine ⟨hs.valid.copied ht, fun s₁ hlater => ?_⟩
  intro second
  obtain ⟨hvalid, hgrows⟩ := (Operation.instantiate ht).spec hs.valid
  have hs₁ : s₁.Valid := hlater.valid hvalid
  have ht₁ : t.Over s₁ := hlater.over hvalid (hgrows.over ht)
  have hcopy₁ : first.1.Over s₁ := hlater.over hvalid fun v hv => (new_of_mem_instantiate hv).2.1
  refine ⟨fun v hv w hw he => ?_, ?_, hs₁.undisturbed_copy ht₁ hcopy₁⟩
  · -- the first copy was known when the second one was made
    have hnew : ¬ s₁.Has w := (new_of_mem_instantiate hw).1
    rw [Has, ← he] at hnew
    exact hnew (hcopy₁ v hv)
  · exact hs₁.undisturbed_by_copy ht₁
      (List.forall_mem_cons.mpr ⟨ht₁, List.forall_mem_singleton.mpr hcopy₁⟩)

/-- `?t0` and `?t1` are linked, `?t2` is bound to `List ?t0`, and `?t2 -> ?t0 -> ?t3` is copied twice, with a
new variable made in between. Each copy is then unified with `List Int -> Int -> Int`. -/
theorem instantiate_apart_linked :
    let list (t : Ty) : Ty := .named "List" [t]
    let v (i : Nat) (name : String) : Ty := .var ⟨i, name⟩
    let four := (fresh {}).2.fresh.2.fresh.2.fresh.2
    let linked := (four.unify (v 0 "?t0") (v 1 "?t1")).2
    let s := (linked.unify (v 2 "?t2") (list (v 0 "?t0"))).2
    let t := Ty.fn (v 2 "?t2") (.fn (v 0 "?t0") (v 3 "?t3"))
    let first := s.instantiate t
    let s₁ := first.2.fresh.2
    let second := s₁.instantiate t
    let int := Ty.constant "Int"
    let ints := Ty.fn (list int) (.fn int int)
    let s₂ := (second.2.unify second.1 ints).2
    let s₃ := (second.2.unify ints first.1).2
    Reachable s ∧ t.Over s ∧ Evolves first.2 s₁ ∧
      first.1 = .fn (list (v 4 "?t4")) (.fn (v 4 "?t4") (v 5 "?t5")) ∧
      second.1 = .fn (list (v 7 "?t7")) (.fn (v 7 "?t7") (v 8 "?t8")) ∧
      (first.2.names = s.names ++ ["?t4", "?t5"] ∧ first.2.lookup ⟨2, "?t2"⟩ = s.lookup ⟨2, "?t2"⟩) ∧
      (s₂.resolve second.1 = ints ∧ s₂.resolve t = second.2.resolve t ∧
        s₂.resolve first.1 = second.2.resolve first.1) ∧
      (s₃.resolve first.1 = ints ∧ s₃.resolve t = second.2.resolve t ∧
        s₃.resolve second.1 = second.2.resolve second.1) := by
  intro list v four linked s t first s₁ second int ints s₂ s₃
  have hfour : Reachable four :=
    (((Relation.ReflTransGen.single .fresh).tail .fresh).tail .fresh).tail .fresh
  have hlinked : Reachable linked := hfour.tail (.unify (by decide) (by decide))
  have hs : Reachable s := hlinked.tail (.unify (by decide +kernel) (by decide +kernel))
  have ht : t.Over s := by decide +kernel
  have hlater : Evolves first.2 s₁ := .single .fresh
  have hints (kept : Set Nat) : ints.Within kept second.2 := by
    have hnone : (second.2.resolve ints).occurrences = [] := by decide +kernel
    refine ⟨by decide +kernel, fun w hw => ?_⟩
    rw [hnone] at hw
    cases hw
  obtain ⟨hcopied, hlaws⟩ := instantiate_apart hs ht
  obtain ⟨-, hbysecond, hbyfirst⟩ := hlaws s₁ hlater
  have hapart : first.1.Avoids (s₁.leftIn t) s₁ := by
    have hdisjoint : ∀ x ∈ (s₁.resolve first.1).occurrences, ∀ y ∈ (s₁.resolve t).occurrences,
        y.index ≠ x.index := by decide +kernel
    rintro x hx ⟨y, hy, he⟩
    exact hdisjoint x hx y hy he
  have hsecond := hbysecond s₂ (.single (.left (hints _)))
  have hfirst := hbyfirst hapart s₃ (.single (.right (hints _)))
  have hnames : first.2.names = s.names ++ ["?t4", "?t5"] := by
    rw [hcopied.names_eq]
    decide +kernel
  exact ⟨hs, ht, hlater, by decide +kernel, by decide +kernel, ⟨hnames, hcopied.lookup_eq _⟩,
    ⟨by decide +kernel, hsecond t List.mem_cons_self, hsecond first.1 (by decide +kernel)⟩,
    ⟨by decide +kernel, hfirst t List.mem_cons_self, hfirst second.1 (by decide +kernel)⟩⟩

end Clausal.Substitution
