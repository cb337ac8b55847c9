import Clausal.Proofs.Session.Totality

/-!
# Types leave no trace in trees

The checker stands between binding and reducing, and hands the reducer what it gives back itself. It
records types of captures there and changes nothing else, also where it reports a problem; and the
reducer does not look at types. So what a session knows decides what it reports, and never what it emits.
-/
namespace Clausal.Session

variable {s s' : Session} {m : Matcher} {d : Definition}

/-- Every definition has the tree of its bound matcher, as if nothing had been checked. -/
theorem exists_tree_of_compile (h : compile m s = .ok d s') :
    ∃ bound, m.bind s.config = .ok bound ∧ bound.tree = .ok d.body := by
  obtain ⟨bound, ty, checked, c, hbound, hchecked, htree, -⟩ := exists_of_compile h
  refine ⟨bound, hbound, ?_⟩
  rw [body_eq_lowered hbound hchecked htree]
  exact tree_eq_lowered (Matcher.bind_bound hbound)

/-- Where binding succeeds there is a definition, and its tree is that of the bound matcher. -/
theorem exists_compile_of_bind {bound : Matcher} (h : m.bind s.config = .ok bound) :
    ∃ d s', compile m s = .ok d s' ∧ bound.tree = .ok d.body := by
  obtain ⟨d, s', hrun, -⟩ := (compile_of_bind_ok h).exists_ok
  obtain ⟨bound', hbound, htree⟩ := exists_tree_of_compile hrun
  cases h.symm.trans hbound
  exact ⟨d, s', hrun, htree⟩

/-- The checker gives back every matcher whose patterns have their places, but for the types of the
captures in its own clauses. A definition has the tree of the bound matcher; so any other session with
the same settings compiles the matcher to the same tree, whatever it has learned, declared and reported. -/
theorem compile_ignores_types (m : Matcher) :
    (m.Placed → ∀ decls c, ∃ ty checked c', m.check decls c = .ok (ty, checked) c' ∧
      checked.untyped = m.untyped) ∧
    ∀ s d s', compile m s = .ok d s' →
      (∃ bound, m.bind s.config = .ok bound ∧ bound.tree = .ok d.body) ∧
      ∀ t : Session, t.config = s.config → ∃ d' t', compile m t = .ok d' t' ∧ d'.body = d.body := by
  constructor
  · intro hplaced decls c
    have hcompletes : Checker.Completes decls c m.check fun _ => True :=
      Matcher.check_completes_placed hplaced c
    obtain ⟨⟨ty, checked⟩, c', hrun, -⟩ := hcompletes.exists_ok
    exact ⟨ty, checked, c', hrun, Matcher.check_untyped hrun⟩
  · intro s d s' hrun
    obtain ⟨bound, hbound, htree⟩ := exists_tree_of_compile hrun
    refine ⟨⟨bound, hbound, htree⟩, fun t hconfig => ?_⟩
    rw [← hconfig] at hbound
    obtain ⟨d', t', hrun', htree'⟩ := exists_compile_of_bind hbound
    exact ⟨d', t', hrun', Except.ok.inj (htree'.symm.trans htree)⟩

/-- A matcher whose condition is a number, compiled once by a new session, and once by one that has a
signature which the matcher does not meet: there are more reports, and the tree is the same. -/
theorem compile_ignores_types_ill_typed :
    let clause : Clause := ⟨default, [.capture default "x" (some (.constant "Int")) none],
      .cond default (.name default "x") (.literal default (.int 1)) (.literal default .unit)⟩
    let m := (Session.freshMatcher {} "f" default 1 [clause]).1
    let s := (Session.freshMatcher {} "f" default 1 [clause]).2
    let t := (s.declareGlobal "f" (.constant "Bool")).2
    ∃ bound d s' d' t', m.bind {} = .ok bound ∧ bound.Placed ∧
      (∃ ty checked c, bound.check ⟨t.env, {}⟩ { subst := t.subst } = .ok (ty, checked) c ∧
        checked.untyped = bound.untyped) ∧
      compile m s = .ok d s' ∧ bound.tree = .ok d.body ∧ compile m t = .ok d' t' ∧
      s'.diagnostics.length = 2 ∧ t'.diagnostics.length = 3 ∧ d'.body = d.body := by
  intro clause m s t
  have hreports : (leftBy (compile m s)).diagnostics.length = 2 ∧
      (leftBy (compile m t)).diagnostics.length = 3 := by decide +kernel
  have hsucceeds : (match compile m s with
    | .ok _ _ => true
    | .error _ _ => false) = true := by decide +kernel
  cases hrun : compile m s with
  | error v s' =>
    rw [hrun] at hsucceeds
    cases hsucceeds
  | ok d s' =>
    obtain ⟨⟨bound, hbound, htree⟩, hother⟩ := (compile_ignores_types m).2 s d s' hrun
    obtain ⟨d', t', hrun', hbody⟩ := hother t rfl
    have hplaced : bound.Placed := (Matcher.bind_bound hbound).placed
    rw [hrun, hrun'] at hreports
    exact ⟨bound, d, s', d', t', hbound, hplaced, (compile_ignores_types bound).1 hplaced _ _, rfl, htree,
      hrun', hreports.1, hreports.2, hbody⟩

end Clausal.Session
