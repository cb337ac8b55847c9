import Clausal.Proofs.Reduction.Strays
import Clausal.Proofs.Typing.Untyped

/-!
# Free names of compiled definitions

The checker and the reducer decide on their own which names a clause binds. If a session reports
nothing on a matcher, the free names of the tree are its placeholders, its own name, names with a
signature, and the strays of the matcher. Scoping is right where there are no strays; it is *not*
right in general, and the condition for it is exact.
-/
namespace Clausal.Session

open Checker

variable {s s' s'' : Session} {m : Matcher} {d : Definition} {n : String}

/-! ## Runs of a session that succeed -/

theorem of_ofExcept {α : Type} {x : Except Violation α} {a : α} (h : ofExcept x s = .ok a s') :
    x = .ok a ∧ s' = s := by
  cases x with
  | error v => cases h
  | ok b =>
    cases h
    exact ⟨rfl, rfl⟩

theorem of_checkApart {α : Type} {x : CheckM α} {a : α} {ds : List Diagnostic}
    (h : checkApart x s = .ok (a, ds) s') :
    ∃ c, x ⟨s.env, s.config⟩ { subst := s.subst } = .ok a c ∧ ds = c.diagnostics ∧
      s' = { s with subst := c.subst } := by
  rw [checkApart] at h
  cases hx : x ⟨s.env, s.config⟩ { subst := s.subst } with
  | error v c =>
    rw [hx] at h
    cases h
  | ok b c =>
    rw [hx] at h
    cases h
    exact ⟨c, rfl, rfl, rfl⟩

/-- What a successful compilation did: the matcher was bound and checked, its tree built, and the
reports of the arity check and of the checker were added. A signature that was there stays. -/
theorem exists_of_compile (h : compile m s = .ok d s') :
    ∃ bound ty checked c, m.bind s.config = .ok bound ∧
      bound.check ⟨s.env, s.config⟩ { subst := s.subst } = .ok (ty, checked) c ∧
      checked.tree = .ok d.body ∧ d.params = checked.params.map (·.name) ∧
      s'.diagnostics = s.diagnostics ++ m.arityReports ++ c.diagnostics ∧
      d.ty = ty ∧ ((s.env.global? checked.name).isSome → s'.env = s.env) := by
  obtain ⟨⟨⟩, s₁, hreport, h⟩ := exists_of_run_bind_eq_ok h
  cases hreport
  obtain ⟨s₂, s₃, hget, h⟩ := exists_of_run_bind_eq_ok h
  cases hget
  obtain ⟨bound, s₄, hbind, h⟩ := exists_of_run_bind_eq_ok h
  obtain ⟨hbound, rfl⟩ := of_ofExcept hbind
  obtain ⟨⟨⟨ty, checked⟩, ds⟩, s₅, hcheck, h⟩ := exists_of_run_bind_eq_ok h
  obtain ⟨c, hchecked, rfl, rfl⟩ := of_checkApart hcheck
  obtain ⟨⟨⟩, s₆, hreport, h⟩ := exists_of_run_bind_eq_ok h
  cases hreport
  obtain ⟨s₇, s₈, hget, h⟩ := exists_of_run_bind_eq_ok h
  cases hget
  -- whether a signature was declared before makes no difference to the last two steps
  have hrest {s₉ : Session} (hrun : (do
      let body ← ofExcept checked.tree
      return ⟨checked.name, checked.params.map (·.name), ty, body⟩ : SessionM Definition) s₉ =
        .ok d s') :
      checked.tree = .ok d.body ∧ d.params = checked.params.map (·.name) ∧
        s'.diagnostics = s₉.diagnostics ∧ d.ty = ty ∧ s'.env = s₉.env := by
    obtain ⟨body, s₁₀, htree, hreturn⟩ := exists_of_run_bind_eq_ok hrun
    obtain ⟨hbody, rfl⟩ := of_ofExcept htree
    cases hreturn
    exact ⟨hbody, rfl, rfl, rfl, rfl⟩
  refine ⟨bound, ty, checked, c, hbound, hchecked, ?_⟩
  split at h
  case isTrue hnone =>
    obtain ⟨old, s₉, hdeclare, h⟩ := exists_of_run_bind_eq_ok h
    cases hdeclare
    obtain ⟨htree, hparams, hds, hty, -⟩ := hrest h
    refine ⟨htree, hparams, hds, hty, fun hsome => ?_⟩
    rw [Option.isNone_iff_eq_none.mp hnone] at hsome
    cases hsome
  case isFalse =>
    obtain ⟨htree, hparams, hds, hty, henv⟩ := hrest h
    exact ⟨htree, hparams, hds, hty, fun _ => henv⟩

/-! ## What is free in the tree -/

theorem tree_eq_lowered {config : Config} (h : m.Bound config) : m.tree = .ok m.lowered := by
  rw [Matcher.tree, Matcher.reduce_run {} h]

theorem body_eq_lowered {bound checked : Matcher} {ty : Ty} {c : Checker}
    (hbound : m.bind s.config = .ok bound)
    (hchecked : bound.check ⟨s.env, s.config⟩ { subst := s.subst } = .ok (ty, checked) c)
    (htree : checked.tree = .ok d.body) : d.body = bound.lowered := by
  have hb : checked.Bound s.config := (Matcher.check_bound hchecked).mpr (Matcher.bind_bound hbound)
  rw [tree_eq_lowered hb, Matcher.check_lowered hchecked] at htree
  exact (Except.ok.inj htree).symm

/-- A compiled definition without reports is the tree of a bound matcher without reports. -/
theorem exists_of_quiet_compile (h : compile m s = .ok d s')
    (hquiet : s'.diagnostics = s.diagnostics) :
    ∃ bound, m.bind s.config = .ok bound ∧ d.body = bound.lowered ∧
      d.params = bound.params.map (·.name) ∧ m.arityReports = [] ∧
      Matcher.clauseReports ⟨s.env, s.config⟩ [m.name] bound.clauses = [] := by
  obtain ⟨bound, ty, checked, c, hbound, hchecked, htree, hparams, hds, -, -⟩ := exists_of_compile h
  rw [hquiet, List.append_assoc, List.self_eq_append_right, List.append_eq_nil_iff] at hds
  obtain ⟨harity, hc⟩ := hds
  have hname : bound.name = m.name := Matcher.bind_name hbound
  have hbody : d.body = bound.lowered := body_eq_lowered hbound hchecked htree
  obtain ⟨all, hall, hreports⟩ := (Matcher.check_adds bound _ _ _ hchecked).logs
  refine ⟨bound, hbound, hbody, by rw [hparams, Matcher.check_params hchecked], harity, ?_⟩
  -- nothing at all was reported, so nothing that does not depend on types either
  have hnil : all = [] := by
    rw [hc] at hall
    exact hall.symm
  rw [hnil, hname] at hreports
  exact hreports.symm

/-- The free names of a tree that was built without any report. -/
theorem mem_freeNames_of_compile (hm : ∀ p ∈ m.placeholders, p ∉ m.names)
    (h : compile m s = .ok d s') (hquiet : s'.diagnostics = s.diagnostics)
    (hn : ¬ (n = m.name ∨ (s.env.global? n).isSome)) :
    n ∈ d.body.freeNames ∧ n ∉ d.params ↔ n ∈ m.strays := by
  obtain ⟨bound, hbound, hbody, hparams, harity, hreports⟩ := exists_of_quiet_compile h hquiet
  have hstrays := Matcher.bind_strays hbound harity
  have hplaceholders := (Matcher.bind_names hbound).2
  have hscope : ¬ InScope ⟨s.env, s.config⟩ [m.name] n := by
    rw [InScope, List.mem_singleton]
    exact hn
  have hfresh : n ∈ bound.placeholders → n ∉ bound.strays := by
    rw [hstrays, hplaceholders]
    exact fun hp hmem => hm n hp (Matcher.names_of_strays hmem)
  rw [hbody, hparams, ← hstrays]
  exact Matcher.mem_freeNames_lowered (Matcher.bind_bound hbound) hreports hscope hfresh

/-- A session that reports nothing on a matcher, none of whose names is a placeholder, makes a closed
tree of it exactly if the strays of the matcher are its own name or have a signature. The strays that
are neither are the names that are free in the tree without being allowed there. -/
theorem compile_closed_iff (hm : ∀ p ∈ m.placeholders, p ∉ m.names)
    (h : compile m s = .ok d s') (hquiet : s'.diagnostics = s.diagnostics) :
    ((∀ n ∈ d.body.freeNames, n ∈ d.params ∨ n = m.name ∨ (s.env.global? n).isSome) ↔
      ∀ n ∈ m.strays, n = m.name ∨ (s.env.global? n).isSome) ∧
    ∀ n, ¬ (n = m.name ∨ (s.env.global? n).isSome) →
      (n ∈ d.body.freeNames ∧ n ∉ d.params ↔ n ∈ m.strays) := by
  refine ⟨⟨fun hclosed n hn => ?_, fun hstrays n hn => ?_⟩, fun n hn =>
    mem_freeNames_of_compile hm h hquiet hn⟩
  · by_contra hout
    obtain ⟨hfree, hun⟩ := (mem_freeNames_of_compile hm h hquiet hout).mpr hn
    exact (hclosed n hfree).elim hun hout
  · by_contra hout
    rw [not_or] at hout
    exact hout.2 (hstrays n ((mem_freeNames_of_compile hm h hquiet hout.2).mp ⟨hn, hout.1⟩))

/-- The second pattern compares with what the first one captures. Nothing is reported, and the tree
looks the name up in front of the binding. -/
theorem compile_closed_iff_equal_behind_capture :
    let clause : Clause := ⟨default, [.capture default "x" none none, .equal default (.name "x") none],
      .literal default (.int 1)⟩
    let m := (freshMatcher {} "f" default 2 [clause]).1
    let s := (freshMatcher {} "f" default 2 [clause]).2
    ∃ d s', (∀ p ∈ m.placeholders, p ∉ m.names) ∧ compile m s = .ok d s' ∧
      s'.diagnostics = s.diagnostics ∧ "x" ∈ d.body.freeNames ∧ "x" ∉ d.params ∧
      ¬ ("x" = m.name ∨ (s.env.global? "x").isSome) := by
  intro clause m s
  have hm : ∀ p ∈ m.placeholders, p ∉ m.names := by decide
  have hx : ¬ ("x" = m.name ∨ (s.env.global? "x").isSome) := by decide
  have hstray : "x" ∈ m.strays := by decide
  have hquiet : (match compile m s with
    | .ok _ s' => s'.diagnostics.isEmpty
    | .error _ _ => false) = true := by decide +kernel
  cases hrun : compile m s with
  | error v s' =>
    rw [hrun] at hquiet
    cases hquiet
  | ok d s' =>
    rw [hrun] at hquiet
    have hsame : s'.diagnostics = s.diagnostics := List.isEmpty_iff.mp hquiet
    have hfree := ((compile_closed_iff hm hrun hsame).2 "x" hx).mpr hstray
    exact ⟨d, s', hm, rfl, hsame, hfree.1, hfree.2, hx⟩

end Clausal.Session
