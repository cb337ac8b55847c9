import Clausal.Proofs.Session.Reachable
import Clausal.Proofs.Typing.Principal

/-!
# Matchers that have a type get the most general one

Whatever was done with a session before, nothing is wrong with the types of a matcher that has one by the
exact rules, and all the types that it has by these rules are instances of the one that is given back.
The matcher may share no variable with declared types: it would find out something about the variable, and
the uses of these types behind that point would get copies that know of it.
-/
namespace Clausal.Session

open Checker Substitution

variable {s : Session} {m : Matcher} {scopes : List Scope} {ds : List Diagnostic}

/-- The checker comes to an end on a matcher with a type, in any scopes. It reports no problem that depends
on types, and each type of the matcher is what the one given back comes to, if the variables that were made
on the way stand for the right types. -/
theorem Reachable.check_principal (hs : Reachable s) (hts : OverAll m.types s.subst)
    (hscopes : ∀ scope ∈ scopes, OverAll (scope.map Prod.snd) s.subst)
    (hapart : ∀ t ∈ m.types, s.env.Apart s.subst t)
    (hlocals : ∀ scope ∈ scopes, ∀ l ∈ scope, s.env.Apart s.subst l.2)
    (htyped : ∃ θ, m.TypedBy ⟨s.env, s.config⟩ ⟨s.subst, ds, scopes⟩ θ) :
    ∃ ty checked c reports, m.check ⟨s.env, s.config⟩ ⟨s.subst, ds, scopes⟩ = .ok (ty, checked) c ∧
      c.diagnostics = ds ++ reports ∧ (∀ d ∈ reports, d.isLexical = true) ∧
      ∀ θ, m.TypedBy ⟨s.env, s.config⟩ ⟨s.subst, ds, scopes⟩ θ → ∃ θ', θ.AgreesBelow s.subst.size θ' ∧
        c.subst.SolvedBy θ' ∧ ty.under θ' = m.fnTy.under θ := by
  have hvalid : s.subst.Valid := hs.sound.reachable.valid
  have hdeclared := hs.sound.declared
  have hbegins : Begins ⟨s.env, s.config⟩ (s.env.leftIn s.subst) ⟨s.subst, ds, scopes⟩ := by
    refine ⟨⟨hvalid, fun i ⟨u, hu, hi⟩ => hvalid.leftIn_lt (hdeclared u hu) i hi, hdeclared, ?_⟩, subset_rfl⟩
    intro scope hscope l hl
    have hover := hscopes scope hscope l.2 (List.mem_map_of_mem hl)
    exact (hlocals scope hscope l hl).within hvalid hdeclared hover
  have hwithin : WithinAll (s.env.leftIn s.subst) m.types s.subst :=
    fun t ht => (hapart t ht).within hvalid hdeclared (hts t ht)
  obtain ⟨θ, hθ⟩ := htyped
  obtain ⟨⟨ty, checked⟩, c, _, hrun, hcarries, -⟩ := Matcher.check_solves hbegins hwithin hθ
  obtain ⟨reports, hreports, hlexical⟩ := hcarries.lexical
  refine ⟨ty, checked, c, reports, hrun, hreports, hlexical, fun θ₁ hθ₁ => ?_⟩
  -- the run does not depend on the assignment that is carried beside it
  obtain ⟨_, _, θ', hrun₁, hcarries₁, hunder⟩ := Matcher.check_solves hbegins hwithin hθ₁
  cases hrun.symm.trans hrun₁
  exact ⟨θ', hcarries₁.agrees, hcarries₁.solved.solves, hunder⟩

/-- A session is told of a generic `g` and of pairs, and checks a matcher that uses `g` on the number in a
pair. The type that is given back stands for that of a function from such pairs to numbers. -/
theorem check_principal_generic_global :
    let int : Ty := .constant "Int"
    let bool : Ty := .constant "Bool"
    let a : Ty := (Substitution.fresh {}).1
    let named : Session := { subst := (Substitution.fresh {}).2 }
    let s := (named.declareGlobal "g" (.fn a a)).2.declareConstr "Pair" [("first", int), ("second", bool)]
    let body := Expr.cond default (.name default "b") (.call default (.name default "g") [.name default "a"])
      (.literal default (.int 0))
    let pair (place first second : Option Place) : Pattern := .record default "Pair" default
      [⟨"first", default, .capture default "a" none first⟩,
        ⟨"second", default, .capture default "b" none second⟩] place
    let m := (s.freshMatcher "f" default 1 [⟨default, [pair none none none], body⟩]).1
    let s' := (s.freshMatcher "f" default 1 [⟨default, [pair none none none], body⟩]).2
    ∃ bound, m.bind {} = .ok bound ∧ Reachable s' ∧ OverAll bound.types s'.subst ∧
      (∀ t ∈ bound.types, s'.env.Apart s'.subst t) ∧
      ∃ ty checked c reports, bound.check ⟨s'.env, s'.config⟩ ⟨s'.subst, [], []⟩ = .ok (ty, checked) c ∧
        c.diagnostics = reports ∧ (∀ d ∈ reports, d.isLexical = true) ∧
        ∃ θ', c.subst.SolvedBy θ' ∧ ty.under θ' = .fn (.named "Tuple2" [int, bool]) int := by
  intro int bool a named s body pair m s'
  let arg : Argument := ⟨placeholderName 1, (named.subst.fresh).1⟩
  let place : Place := .argument arg (some "Pair")
  let bound : Matcher := { m with
    clauses := [⟨default, [pair place (place.access "first") (place.access "second")], body⟩] }
  have hbind : m.bind {} = .ok bound := by rfl
  have hnamed : Reachable named := .single (.operate .fresh)
  have hs : Reachable s' := by
    exact ((hnamed.tail (.declareGlobal (by decide))).tail (.declareConstr (by decide))).tail .freshMatcher
  have hts : OverAll bound.types s'.subst := by decide
  have hdeclared : ∀ u, s'.env.Declares u → u ∈ [Ty.fn a a, int, bool] := by
    rintro u (⟨hu⟩ | ⟨hconstr, hu⟩)
    · cases List.mem_singleton.mp (mem_of_lookup hu)
      exact List.mem_cons_self
    · cases List.mem_singleton.mp (mem_of_lookup hconstr)
      have hmem : u ∈ [("first", int), ("second", bool)].map Prod.snd := List.mem_map_of_mem hu
      exact List.mem_cons_of_mem _ hmem
  have hapart : ∀ t ∈ bound.types, s'.env.Apart s'.subst t := by
    have hall : ∀ t ∈ bound.types, ∀ u ∈ [Ty.fn a a, int, bool], ∀ v ∈ (s'.subst.resolve t).occurrences,
        v ∉ (s'.subst.resolve u).occurrences := by decide +kernel
    exact fun t ht u hu => hall t ht u (hdeclared u hu)
  let tuple : Ty := .named "Tuple2" [int, bool]
  let base : Assignment := fun _ => .constant "Unit"
  let θ : Assignment := Function.update (Function.update (Function.update base 0 int) 1 tuple) 2 int
  have hsolves : s'.subst.SolvedBy θ :=
    (((solvedBy_empty base).fresh valid_empty int).fresh valid_empty.fresh tuple).fresh
      valid_empty.fresh.fresh int
  let Γ : Scope := [("b", bool), ("a", int), ("f", .fn tuple int)]
  have hint : s'.subst.IsInstance int int := ⟨.var, by decide +kernel⟩
  have hbool : s'.subst.IsInstance bool bool := ⟨.var, by decide +kernel⟩
  have hgeneric : s'.subst.IsInstance (.fn a a) (.fn int int) := ⟨fun _ => int, by decide +kernel⟩
  let decls : Declarations := ⟨s'.env, s'.config⟩
  have hfirst : Exact.Matches decls s'.subst θ [("f", .fn tuple int)]
      (.capture default "a" none (place.access "first")) int [("a", int), ("f", .fn tuple int)] :=
    .capture (.field rfl hint) nofun
  have hsecond : Exact.Matches decls s'.subst θ [("a", int), ("f", .fn tuple int)]
      (.capture default "b" none (place.access "second")) bool Γ :=
    .capture (.field rfl hbool) nofun
  have harg : arg.ty.under θ = .named (decls.config.tupleTypeName 2) [int, bool] := by rfl
  have hplace : Exact.PlaceHas decls s'.subst θ place (.named (decls.config.tupleTypeName 2) [int, bool]) :=
    harg ▸ .argument
  have hpair : Exact.Matches decls s'.subst θ [("f", .fn tuple int)]
      (pair place (place.access "first") (place.access "second"))
      (.named (decls.config.tupleTypeName 2) [int, bool]) Γ :=
    .record hplace (.cons hfirst (.cons hsecond .nil))
  have hbody : Exact.HasType decls s'.subst θ Γ body int :=
    .cond (.name (.local rfl)) (.call (.name (.global rfl rfl hgeneric))
      (.cons (.name (.local rfl)) .nil)) .literal
  have htyped : bound.TypedBy decls ⟨s'.subst, [], []⟩ θ :=
    ⟨hsolves, nofun, .cons (.cons hpair .nil) hbody .nil⟩
  obtain ⟨ty, checked, c, reports, hrun, hreports, hlexical, hprincipal⟩ :=
    hs.check_principal hts (List.forall_mem_nil _) hapart (List.forall_mem_nil _) ⟨θ, htyped⟩
  obtain ⟨θ', -, hθ', hty⟩ := hprincipal θ htyped
  exact ⟨bound, hbind, hs, hts, hapart, ty, checked, c, reports, hrun, hreports, hlexical, θ', hθ', hty⟩

end Clausal.Session
