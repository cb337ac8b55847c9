import Clausal.Proofs.Control
import Clausal.Proofs.Substitution.Evolution

/-!
# Every access to the table is in range

A valid substitution has a cell for each variable it made and for its representative, and is bound to types
made of such variables only. On types over it the steps with checked bounds therefore never stop, and each of
them gives what the operation without the checks gives. A variable that it did not make stops them at once.
-/
namespace Clausal

namespace Ty

theorem bindVarsAllM_run {f : Var → SubstM Ty} {g : Var → Ty} {s : Substitution} {ts : List Ty}
    (h : ∀ t ∈ ts, t.bindVarsM f s = .ok (t.bindVars g) s) :
    bindVarsAllM f ts s = .ok (ts.map (bindVars g)) s := by
  induction ts with
  | nil => rfl
  | cons t ts ih =>
    obtain ⟨ht, hts⟩ := List.forall_mem_cons.mp h
    rw [bindVarsAllM, run_bind_of_eq_ok ht, run_bind_of_eq_ok (ih hts)]
    rfl

/-- Where each step puts in a type and leaves the substitution alone, the walk does. -/
theorem bindVarsM_run {f : Var → SubstM Ty} {g : Var → Ty} {s : Substitution} {t : Ty}
    (h : ∀ v ∈ t.occurrences, f v s = .ok (g v) s) : t.bindVarsM f s = .ok (t.bindVars g) s := by
  induction t with
  | var v =>
    rw [bindVarsM, bindVars_var]
    exact h v (mem_occurrences_var.mpr rfl)
  | named constr ts ih =>
    have hargs : bindVarsAllM f ts s = .ok (ts.map (bindVars g)) s :=
      bindVarsAllM_run fun t ht => ih t ht fun v hv => h v (mem_occurrences_named.mpr ⟨t, ht, hv⟩)
    rw [bindVarsM, run_bind_of_eq_ok hargs, bindVars_named]
    rfl
  | fn d c ihd ihc =>
    have hd := ihd fun v hv => h v (mem_occurrences_fn.mpr (.inl hv))
    have hc := ihc fun v hv => h v (mem_occurrences_fn.mpr (.inr hv))
    rw [bindVarsM, run_bind_of_eq_ok hd, run_bind_of_eq_ok hc, bindVars_fn]
    rfl

end Ty

namespace Substitution

variable {s s' s₁ s₂ : Substitution} {v w : Var} {t u b x d d' c c' : Ty} {r : Unification} {n : Nat}

/-! ## Single accesses -/

theorem cellStrict_run {i : Nat} {c : Cell} (h : s.cells[i]? = some c) : cellStrict i s = .ok c s := by
  have hget : (get : SubstM Substitution) s = .ok s s := rfl
  rw [cellStrict, run_bind_of_eq_ok hget, h]
  rfl

theorem cellStrict_of_le {i : Nat} (h : s.size ≤ i) :
    cellStrict i s = .error (.indexOutOfBounds s.size i) s := by
  have hget : (get : SubstM Substitution) s = .ok s s := rfl
  rw [cellStrict, run_bind_of_eq_ok hget, Array.getElem?_eq_none h]
  rfl

theorem rootIndexStrict_run (hv : s.Has v) : rootIndexStrict v s = .ok (s.rootIndex v) s := by
  have hcell : s.cells[v.index]? = some s.cells[v.index] := Array.getElem?_eq_getElem hv
  rw [rootIndexStrict, run_bind_of_eq_ok (cellStrict_run hcell), rootIndex, hcell]
  rfl

/-- A variable of another substitution is never taken for one that is unbound. -/
theorem lookupStrict_of_not_has (hv : ¬ s.Has v) :
    lookupStrict v s = .error (.indexOutOfBounds s.size v.index) s := by
  have hcell : rootIndexStrict v s = .error (.indexOutOfBounds s.size v.index) s := by
    rw [rootIndexStrict, run_bind_of_eq_error (cellStrict_of_le (Nat.le_of_not_lt hv))]
  rw [lookupStrict, run_bind_of_eq_error hcell]

/-- The representative of a variable has a cell. -/
theorem Valid.exists_cell (hs : s.Valid) (hv : s.Has v) : ∃ c, s.cells[s.rootIndex v]? = some c :=
  ⟨_, Array.getElem?_eq_getElem (hs.root_lt v hv)⟩

theorem Valid.rootStrict_run (hs : s.Valid) (hv : s.Has v) : rootStrict v s = .ok (s.root v) s := by
  obtain ⟨c, hc⟩ := hs.exists_cell hv
  rw [rootStrict, run_bind_of_eq_ok (rootIndexStrict_run hv), run_bind_of_eq_ok (cellStrict_run hc), root,
    nameOf, hc]
  rfl

theorem Valid.lookupStrict_run (hs : s.Valid) (hv : s.Has v) : lookupStrict v s = .ok (s.lookup v) s := by
  obtain ⟨c, hc⟩ := hs.exists_cell hv
  rw [lookupStrict, run_bind_of_eq_ok (rootIndexStrict_run hv), run_bind_of_eq_ok (cellStrict_run hc), lookup,
    hc]
  rfl

theorem sameClassStrict_run (hv : s.Has v) (hw : s.Has w) :
    sameClassStrict v w s = .ok (s.sameClass v w) s := by
  rw [sameClassStrict, run_bind_of_eq_ok (rootIndexStrict_run hv), run_bind_of_eq_ok (rootIndexStrict_run hw)]
  rfl

/-! ## Walks through bindings -/

theorem Valid.chaseStrict_run (hs : s.Valid) (ht : t.Over s) : chaseStrict t s = .ok (s.chase t) s := by
  cases t with
  | named constr ts => rfl
  | fn d c => rfl
  | var v =>
    have hv := over_var.mp ht
    rw [chaseStrict, run_bind_of_eq_ok (hs.lookupStrict_run hv), chase]
    cases s.lookup v with
    | some b => rfl
    | none =>
      dsimp only
      rw [run_bind_of_eq_ok (hs.rootStrict_run hv)]
      rfl

theorem anyM_run {α : Type} {f : α → SubstM Bool} {g : α → Bool} {l : List α}
    (h : ∀ a ∈ l, f a s = .ok (g a) s) : l.anyM f s = .ok (l.any g) s := by
  induction l with
  | nil => rfl
  | cons a l ih =>
    obtain ⟨ha, hl⟩ := List.forall_mem_cons.mp h
    rw [List.anyM, run_bind_of_eq_ok ha, List.any_cons]
    cases g a with
    | true => rfl
    | false => exact ih hl

theorem Valid.occursWithinStrict_run (hs : s.Valid) (hv : s.Has v) (n : Nat) (ht : t.Over s) :
    occursWithinStrict v n t s = .ok (s.occursWithin v n t) s := by
  induction n generalizing t with
  | zero => rfl
  | succ n ih =>
    rw [occursWithinStrict, occursWithin.eq_2]
    refine anyM_run fun w hw => ?_
    rw [run_bind_of_eq_ok (hs.lookupStrict_run (ht w hw))]
    cases hb : s.lookup w with
    | some b => exact ih (hs.bound_over w b hb)
    | none => exact sameClassStrict_run hv (ht w hw)

theorem Valid.occursStrict_run (hs : s.Valid) (hv : s.Has v) (ht : t.Over s) :
    occursStrict v t s = .ok (s.occurs v t) s :=
  hs.occursWithinStrict_run hv s.hops ht

theorem Valid.resolveWithinStrict_run (hs : s.Valid) (n : Nat) (ht : t.Over s) :
    resolveWithinStrict n t s = .ok (s.resolveWithin n t) s := by
  induction n generalizing t with
  | zero => rfl
  | succ n ih =>
    rw [resolveWithinStrict, resolveWithin.eq_2]
    refine Ty.bindVarsM_run fun w hw => ?_
    rw [run_bind_of_eq_ok (hs.lookupStrict_run (ht w hw))]
    cases hb : s.lookup w with
    | some b => exact ih (hs.bound_over w b hb)
    | none =>
      dsimp only
      rw [run_bind_of_eq_ok (hs.rootStrict_run (ht w hw))]
      rfl

theorem Valid.resolveStrict_run (hs : s.Valid) (ht : t.Over s) :
    resolveStrict t s = .ok (s.resolve t) s :=
  hs.resolveWithinStrict_run s.hops ht

/-! ## Changes -/

theorem Valid.instantiateStrict_run (hs : s.Valid) (ht : t.Over s) :
    instantiateStrict t s = .ok (s.instantiate t).1 (s.instantiate t).2 := by
  rw [instantiateStrict, run_bind_of_eq_ok (hs.resolveStrict_run ht)]
  rfl

theorem Valid.bindStrict_run (hs : s.Valid) (hv : s.Has v) (hnone : s.lookup v = none)
    (ht : ∀ w, t ≠ .var w) : bindStrict v t s = .ok () (s.bind v t) := by
  rw [bindStrict, run_bind_of_eq_ok (hs.lookupStrict_run hv), hnone]
  cases t with
  | var w => exact absurd rfl (ht w)
  | named constr ts => rfl
  | fn d c => rfl

theorem Valid.linkStrict_run (hs : s.Valid) (hv : s.Has v) (hw : s.Has w) :
    linkStrict v w s = .ok () (s.link v w) := by
  obtain ⟨c, hc⟩ := hs.exists_cell hv
  obtain ⟨d, hd⟩ := hs.exists_cell hw
  rw [linkStrict, run_bind_of_eq_ok (rootIndexStrict_run hv), run_bind_of_eq_ok (cellStrict_run hc),
    run_bind_of_eq_ok (rootIndexStrict_run hw), run_bind_of_eq_ok (cellStrict_run hd)]
  rfl

theorem Valid.assignStrict_run (hs : s.Valid) (hv : s.Has v) (hnone : s.lookup v = none)
    (hover : t.Over s) (ht : ∀ w, t ≠ .var w) :
    assignStrict v t s = .ok (s.assign v t).1 (s.assign v t).2 := by
  rw [assignStrict, run_bind_of_eq_ok (hs.occursStrict_run hv hover), assign]
  cases s.occurs v t with
  | true => rfl
  | false =>
    simp only [Bool.false_eq_true, if_false, run_bind_of_eq_ok (hs.bindStrict_run hv hnone ht)]
    rfl

/-! ## Unification -/

theorem Valid.unifyWithinStrict_chaseLeft (hs : s.Valid) (hv : s.Has v) (hb : s.lookup v = some b) :
    unifyWithinStrict (n + 1) (.var v) u s = unifyWithinStrict n b u s := by
  have hlookup := hs.lookupStrict_run hv
  rw [unifyWithinStrict.eq_def]
  cases u with
  | var w => simp only [run_bind_of_eq_ok hlookup, hb]
  | named constr us => simp only [run_bind_of_eq_ok hlookup, hb]
  | fn d c => simp only [run_bind_of_eq_ok hlookup, hb]

theorem Valid.unifyWithinStrict_chaseRight (hs : s.Valid) (ht : t.Over s)
    (hnone : ∀ v, t = .var v → s.lookup v = none) (hw : s.Has w) (hb : s.lookup w = some b) :
    unifyWithinStrict (n + 1) t (.var w) s = unifyWithinStrict n t b s := by
  have hlookup := hs.lookupStrict_run hw
  rw [unifyWithinStrict.eq_def]
  cases t with
  | var v =>
    simp only [run_bind_of_eq_ok (hs.lookupStrict_run (over_var.mp ht)), hnone v rfl,
      run_bind_of_eq_ok hlookup, hb]
  | named constr ts => simp only [run_bind_of_eq_ok hlookup, hb]
  | fn d c => simp only [run_bind_of_eq_ok hlookup, hb]

theorem Valid.unifyWithinStrict_unbound (hs : s.Valid) (hv : s.Has v) (hw : s.Has w)
    (hv' : s.lookup v = none) (hw' : s.lookup w = none) :
    unifyWithinStrict (n + 1) (.var v) (.var w) s =
      if s.sameClass v w then .ok (some (.unified (.var v))) s
      else .ok (some (.unified (.var w))) (s.link v w) := by
  rw [unifyWithinStrict.eq_def]
  simp only [run_bind_of_eq_ok (hs.lookupStrict_run hv), hv',
    run_bind_of_eq_ok (hs.lookupStrict_run hw), hw', run_bind_of_eq_ok (sameClassStrict_run hv hw)]
  cases s.sameClass v w with
  | true => rfl
  | false => exact run_bind_of_eq_ok (hs.linkStrict_run hv hw)

theorem Valid.unifyWithinStrict_assignLeft (hs : s.Valid) (hv : s.Has v) (hnone : s.lookup v = none)
    (hover : u.Over s) (hu : ∀ w, u ≠ .var w) :
    unifyWithinStrict (n + 1) (.var v) u s = .ok (some (s.assign v u).1) (s.assign v u).2 := by
  have hlookup := hs.lookupStrict_run hv
  have hassign := hs.assignStrict_run hv hnone hover hu
  rw [unifyWithinStrict.eq_def]
  cases u with
  | var w => exact absurd rfl (hu w)
  | named constr us =>
    simp only [run_bind_of_eq_ok hlookup, hnone]
    exact run_bind_of_eq_ok hassign
  | fn d c =>
    simp only [run_bind_of_eq_ok hlookup, hnone]
    exact run_bind_of_eq_ok hassign

theorem Valid.unifyWithinStrict_assignRight (hs : s.Valid) (hw : s.Has w) (hnone : s.lookup w = none)
    (hover : t.Over s) (ht : ∀ v, t ≠ .var v) :
    unifyWithinStrict (n + 1) t (.var w) s = .ok (some (s.assign w t).1) (s.assign w t).2 := by
  have hlookup := hs.lookupStrict_run hw
  have hassign := hs.assignStrict_run hw hnone hover ht
  rw [unifyWithinStrict.eq_def]
  cases t with
  | var v => exact absurd rfl (ht v)
  | named constr ts =>
    simp only [run_bind_of_eq_ok hlookup, hnone]
    exact run_bind_of_eq_ok hassign
  | fn d c =>
    simp only [run_bind_of_eq_ok hlookup, hnone]
    exact run_bind_of_eq_ok hassign

theorem unifyWithinStrict_clash (h : t.Clash u) :
    unifyWithinStrict (n + 1) t u s = .ok (some (.mismatch u t)) s := by
  induction t, u, h using Ty.Clash.induction with
  | named m ts n us h => exact congrFun (if_neg h) s
  | namedFn m ts d c => rfl
  | fnNamed d c n us => rfl

theorem unifyWithinStrict_fnDomain (hd : unifyWithinStrict n d' d s = .ok (some r) s₁)
    (hr : r.isUnified = false) :
    unifyWithinStrict (n + 1) (.fn d c) (.fn d' c') s = .ok (some r) s₁ := by
  rw [unifyWithinStrict.eq_def]
  simp only [run_bind_of_eq_ok hd]
  cases r with
  | unified x => cases hr
  | mismatch e a => rfl
  | circular x v => rfl

/-- The codomains go last, so their answer is that of the functions. -/
theorem unifyWithinStrict_fnCodomain (hd : unifyWithinStrict n d' d s = .ok (some (.unified x)) s₁)
    (hc : unifyWithinStrict n c c' s₁ = .ok (some r) s₂) :
    unifyWithinStrict (n + 1) (.fn d c) (.fn d' c') s = .ok (some (r.map (.fn x))) s₂ := by
  rw [unifyWithinStrict.eq_def]
  simp only [run_bind_of_eq_ok hd, run_bind_of_eq_ok hc]
  cases r with
  | unified y => rfl
  | mismatch e a => rfl
  | circular y v => rfl

/-- Every run of the unifier that comes to an end is one with checked bounds. -/
theorem Valid.unifyWithinStrict_run (hs : s.Valid) (ht : t.Over s) (hu : u.Over s)
    (h : unifyWithin n t u s = some (r, s')) : unifyWithinStrict n t u s = .ok (some r) s' := by
  fun_induction unifyWithin n t u s generalizing r s' with
  | case1 => cases h
  | case2 n v w s b hv ih =>
    rw [hs.unifyWithinStrict_chaseLeft (over_var.mp ht) hv]
    exact ih hs (hs.bound_over v b hv) hu h
  | case3 n v w s hv b hw ih =>
    have hnone : ∀ v', Ty.var v = .var v' → s.lookup v' = none := by
      rintro v' ⟨⟩
      exact hv
    rw [hs.unifyWithinStrict_chaseRight ht hnone (over_var.mp hu) hw]
    exact ih hs ht (hs.bound_over w b hw) h
  | case4 n v w s hv hw hsame =>
    cases h
    rw [hs.unifyWithinStrict_unbound (over_var.mp ht) (over_var.mp hu) hv hw, if_pos hsame]
  | case5 n v w s hv hw hsame =>
    cases h
    rw [hs.unifyWithinStrict_unbound (over_var.mp ht) (over_var.mp hu) hv hw, if_neg hsame]
  | case6 n v t s hvar b hv ih =>
    rw [hs.unifyWithinStrict_chaseLeft (over_var.mp ht) hv]
    exact ih hs (hs.bound_over v b hv) hu h
  | case7 n v t s hvar hv =>
    rw [hs.unifyWithinStrict_assignLeft (over_var.mp ht) hv hu hvar, Option.some.inj h]
  | case8 n t w s hvar b hw ih =>
    rw [hs.unifyWithinStrict_chaseRight ht (fun v hv => absurd hv (hvar v)) (over_var.mp hu) hw]
    exact ih hs ht (hs.bound_over w b hw) h
  | case9 n t w s hvar hw =>
    rw [hs.unifyWithinStrict_assignRight (over_var.mp hu) hw ht hvar, Option.some.inj h]
  | case10 n ts m us s =>
    cases h
    exact congrFun (if_pos rfl) s
  | case11 n m ts m' us s hne =>
    cases h
    exact unifyWithinStrict_clash hne
  | case12 n d c d' c' s domain s₁ hd codomain s₂ hc ihd ihc =>
    obtain ⟨hdo, hco⟩ := over_fn.mp ht
    obtain ⟨hdo', hco'⟩ := over_fn.mp hu
    have h₁ := (unifies_of_unifyWithin hd).advances hs hdo' hdo
    have hcodomain := ihc h₁.valid (h₁.grows.over hco) (h₁.grows.over hco') hc
    cases h
    exact unifyWithinStrict_fnCodomain (ihd hs hdo' hdo hd) hcodomain
  | case13 n d c d' c' s domain s₁ hd hc ihd ihc =>
    obtain ⟨hdo, hco⟩ := over_fn.mp ht
    obtain ⟨hdo', hco'⟩ := over_fn.mp hu
    have h₁ := (unifies_of_unifyWithin hd).advances hs hdo' hdo
    have hcodomain := ihc h₁.valid (h₁.grows.over hco) (h₁.grows.over hco') h
    rw [unifyWithinStrict_fnCodomain (ihd hs hdo' hdo hd) hcodomain]
    cases r with
    | unified codomain => exact (hc codomain s' h).elim
    | mismatch e a => rfl
    | circular x v => rfl
  | case14 n d c d' c' s hd ih =>
    refine unifyWithinStrict_fnDomain (ih hs (over_fn.mp hu).1 (over_fn.mp ht).1 h) ?_
    cases r with
    | unified domain => exact (hd domain s' h).elim
    | mismatch e a => rfl
    | circular x v => rfl
  | case15 n t u s _ hvar hvar' hnamed hfn =>
    cases h
    exact unifyWithinStrict_clash (clash_of_ne hvar hvar' hnamed hfn)

theorem Valid.unifyStrict_run (hs : s.Valid) (ht : t.Over s) (hu : u.Over s) :
    unifyStrict t u s = .ok (s.unify t u).1 (s.unify t u).2 := by
  change (unifyWithinStrict (s.steps t u) t u >>= fun r => pure (r.getD (.mismatch u t))) s = _
  rw [run_bind_of_eq_ok (hs.unifyWithinStrict_run ht hu (hs.unifyWithin_steps ht hu))]
  rfl

end Substitution
end Clausal
