import Clausal.Proofs.Matcher.Placement
import Mathlib.Data.List.Nodup

/-!
# The arity check and the clauses that binding alters

A clause is found at the end of a path through the program: into a clause of a matcher, from its body into
the parts of expressions from left to right, and behind the scrutinees of an inline matcher into its
clauses. Paths in the order of the dictionary are the source order, a clause before all that is in its
body. The check reports on each clause whose number of patterns is not that of its placeholders, once and
in this order; these are the clauses whose row of patterns is of another length when the matcher is bound.
-/
namespace Clausal

/-! ## Clauses and the paths to them -/

/-- The expressions right below an expression, from left to right. -/
def Expr.children : Expr → List Expr
  | .literal _ _ => []
  | .name _ _ => []
  | .call _ callee args => callee :: args
  | .cond _ c t e => [c, t, e]
  | .letIn _ _ _ value body => [value, body]
  | .access _ value _ _ => [value]
  | .matching _ scrutinees _ => scrutinees

/-- The matcher that an expression applies in place. -/
def Expr.matcher? : Expr → Option Matcher
  | .matching _ _ m => some m
  | _ => none

/-- A clause, the number of placeholders of its matcher, and the path to it. -/
structure ClauseSite where
  path : List Nat
  arity : Nat
  clause : Clause

namespace ClauseSite

/-- The site as seen from one step further up. -/
def under (i : Nat) (o : ClauseSite) : ClauseSite :=
  { o with path := i :: o.path }

def report (o : ClauseSite) : List Diagnostic :=
  o.clause.arityReport o.arity

end ClauseSite

mutual

/-- The clause is somewhere in the expression. A matcher is behind its scrutinees. -/
inductive Expr.HasSite : Expr → ClauseSite → Prop where
  | child {e e' i o} : e.children[i]? = some e' → Expr.HasSite e' o → Expr.HasSite e (o.under i)
  | matcher {e m o} : e.matcher? = some m → Matcher.HasSite m o →
      Expr.HasSite e (o.under e.children.length)

/-- The clause is one of the matcher, or somewhere in the body of one. -/
inductive Matcher.HasSite : Matcher → ClauseSite → Prop where
  | clause {m i c} : m.clauses[i]? = some c → Matcher.HasSite m ⟨[i], m.arity, c⟩
  | body {m i c o} : m.clauses[i]? = some c → Expr.HasSite c.body o → Matcher.HasSite m (o.under i)

end

/-- The clause itself, at the end of the empty path, or one in its body. -/
def Clause.HasSite (arity : Nat) (c : Clause) (o : ClauseSite) : Prop :=
  o = ⟨[], arity, c⟩ ∨ c.body.HasSite o

/-- The site is in a member of the list, the members being numbered from the given number on. -/
def SiteIn {α : Type} (has : α → ClauseSite → Prop) (first : Nat) (l : List α) (o : ClauseSite) : Prop :=
  ∃ i a o', l[i]? = some a ∧ has a o' ∧ o = o'.under (first + i)

theorem Expr.HasSite.path_ne_nil {e : Expr} {o : ClauseSite} (h : e.HasSite o) : o.path ≠ [] := by
  cases h with
  | child => exact List.cons_ne_nil _ _
  | matcher => exact List.cons_ne_nil _ _

theorem Expr.hasSite_iff {e : Expr} {o : ClauseSite} : e.HasSite o ↔
    SiteIn Expr.HasSite 0 e.children o ∨
      ∃ m o', e.matcher? = some m ∧ m.HasSite o' ∧ o = o'.under e.children.length := by
  constructor
  · intro h
    cases h with
    | @child _ e' i o hi h => exact .inl ⟨i, e', o, hi, h, by rw [Nat.zero_add]⟩
    | @matcher _ m o hm h => exact .inr ⟨m, o, hm, h, rfl⟩
  · rintro (⟨i, e', o', hi, h, rfl⟩ | ⟨m, o', hm, h, rfl⟩)
    · rw [Nat.zero_add]
      exact .child hi h
    · exact .matcher hm h

theorem Matcher.hasSite_iff {m : Matcher} {o : ClauseSite} :
    m.HasSite o ↔ SiteIn (Clause.HasSite m.arity) 0 m.clauses o := by
  constructor
  · intro h
    cases h with
    | @clause _ i c hi => exact ⟨i, c, ⟨[], m.arity, c⟩, hi, .inl rfl, by rw [Nat.zero_add]; rfl⟩
    | @body _ i c o hi h => exact ⟨i, c, o, hi, .inr h, by rw [Nat.zero_add]⟩
  · rintro ⟨i, c, o', hi, rfl | h, rfl⟩
    · rw [Nat.zero_add]
      exact .clause hi
    · rw [Nat.zero_add]
      exact .body hi h

/-! ## Reports in the order of the paths -/

/-- The sites with the property, each once and in the order of their paths, give these reports. -/
def Tells (P : ClauseSite → Prop) (ds : List Diagnostic) : Prop :=
  ∃ sites : List ClauseSite, sites.Pairwise (·.path < ·.path) ∧ (∀ o, o ∈ sites ↔ P o) ∧
    ds = sites.flatMap ClauseSite.report

section

variable {P Q : ClauseSite → Prop} {ds ds' : List Diagnostic}

theorem Tells.congr (h : Tells P ds) (hPQ : ∀ o, P o ↔ Q o) : Tells Q ds := by
  obtain ⟨sites, hsorted, hmem, hds⟩ := h
  exact ⟨sites, hsorted, fun o => (hmem o).trans (hPQ o), hds⟩

theorem Tells.append (h : Tells P ds) (h' : Tells Q ds')
    (hlt : ∀ o o', P o → Q o' → o.path < o'.path) : Tells (fun o => P o ∨ Q o) (ds ++ ds') := by
  obtain ⟨sites, hsorted, hmem, rfl⟩ := h
  obtain ⟨sites', hsorted', hmem', rfl⟩ := h'
  refine ⟨sites ++ sites', List.pairwise_append.mpr ⟨hsorted, hsorted', fun o ho o' ho' => ?_⟩,
    fun o => ?_, List.flatMap_append.symm⟩
  · exact hlt o o' ((hmem o).mp ho) ((hmem' o').mp ho')
  · rw [List.mem_append, hmem, hmem']

theorem Tells.under (h : Tells P ds) (i : Nat) : Tells (fun o => ∃ o', P o' ∧ o = o'.under i) ds := by
  obtain ⟨sites, hsorted, hmem, rfl⟩ := h
  refine ⟨sites.map (ClauseSite.under i), ?_, fun o => ?_, by rw [List.flatMap_map]; rfl⟩
  · exact List.pairwise_map.mpr
      (hsorted.imp fun hlt => List.cons_lt_cons_iff.mpr (.inr ⟨rfl, hlt⟩))
  · rw [List.mem_map]
    exact exists_congr fun o' => and_congr (hmem o') eq_comm

theorem tells_clause (arity : Nat) {c : Clause} (h : Tells c.body.HasSite ds) :
    Tells (Clause.HasSite arity c) (c.arityReport arity ++ ds) := by
  have hself : Tells (· = ⟨[], arity, c⟩) (c.arityReport arity) :=
    ⟨[⟨[], arity, c⟩], List.pairwise_singleton _ _, fun o => List.mem_singleton,
      (List.append_nil _).symm⟩
  refine hself.append h fun o o' ho ho' => ?_
  obtain ⟨i, path, hpath⟩ := List.exists_cons_of_ne_nil ho'.path_ne_nil
  rw [ho, hpath]
  exact List.nil_lt_cons i path

section

variable {α : Type} {has : α → ClauseSite → Prop}

theorem tells_nil (first : Nat) : Tells (SiteIn has first []) [] := by
  refine ⟨[], List.Pairwise.nil, fun o => iff_of_false List.not_mem_nil ?_, rfl⟩
  rintro ⟨i, a, o', hi, -⟩
  cases hi

/-- What is told of the first member comes before what is told of the others. -/
theorem Tells.cons {first : Nat} {a : α} {l : List α} (h : Tells (has a) ds)
    (h' : Tells (SiteIn has (first + 1) l) ds') : Tells (SiteIn has first (a :: l)) (ds ++ ds') := by
  refine ((h.under first).append h' ?_).congr fun o => ?_
  · rintro o o' ⟨o₁, -, rfl⟩ ⟨i, b, o₂, -, -, rfl⟩
    exact List.cons_lt_cons_iff.mpr (.inl (by omega))
  · constructor
    · rintro (⟨o', ho', rfl⟩ | ⟨i, b, o', hi, ho', rfl⟩)
      · exact ⟨0, a, o', rfl, ho', rfl⟩
      · exact ⟨i + 1, b, o', hi, ho', by rw [Nat.add_assoc, Nat.add_comm 1]⟩
    · rintro ⟨i, b, o', hi, ho', rfl⟩
      cases i with
      | zero =>
        cases hi
        exact .inl ⟨o', ho', rfl⟩
      | succ i => exact .inr ⟨i, b, o', hi, ho', by rw [Nat.add_assoc, Nat.add_comm 1]⟩

end

theorem Tells.expr {e : Expr} (hm : e.matcher? = none) (h : Tells (SiteIn Expr.HasSite 0 e.children) ds) :
    Tells e.HasSite ds := by
  refine h.congr fun o => ?_
  rw [Expr.hasSite_iff, hm]
  simp

end

mutual

theorem Expr.tells_arityReports : ∀ e : Expr, Tells e.HasSite e.arityReports
  | .literal _ _ => .expr rfl (tells_nil 0)
  | .name _ _ => .expr rfl (tells_nil 0)
  | .call _ callee args => by
    rw [Expr.arityReports]
    exact .expr rfl (callee.tells_arityReports.cons (Expr.tells_arityReportsAll 1 args))
  | .cond _ c t e => by
    have h := e.tells_arityReports.cons (tells_nil 3)
    have h' := c.tells_arityReports.cons (t.tells_arityReports.cons h)
    rw [List.append_nil, ← List.append_assoc] at h'
    exact .expr rfl h'
  | .letIn _ _ _ value body => by
    have h := value.tells_arityReports.cons (body.tells_arityReports.cons (tells_nil 2))
    rw [List.append_nil] at h
    exact .expr rfl h
  | .access _ value _ _ => by
    have h := value.tells_arityReports.cons (tells_nil 1)
    rw [List.append_nil] at h
    rw [Expr.arityReports]
    exact .expr rfl h
  | .matching s scrutinees m => by
    rw [Expr.arityReports]
    have hmatcher := m.tells_arityReports.under scrutinees.length
    refine ((Expr.tells_arityReportsAll 0 scrutinees).append hmatcher ?_).congr fun o => ?_
    · rintro o o' ⟨i, e, o₁, hi, -, rfl⟩ ⟨o₂, -, rfl⟩
      have hlt := (List.getElem?_eq_some_iff.mp hi).1
      exact List.cons_lt_cons_iff.mpr (.inl (by omega))
    · rw [Expr.hasSite_iff]
      simp [Expr.children, Expr.matcher?]

theorem Expr.tells_arityReportsAll : ∀ (first : Nat) (es : List Expr),
    Tells (SiteIn Expr.HasSite first es) (Expr.arityReportsAll es)
  | first, [] => tells_nil first
  | first, e :: es => e.tells_arityReports.cons (Expr.tells_arityReportsAll (first + 1) es)

theorem Matcher.tells_arityReports : ∀ m : Matcher, Tells m.HasSite m.arityReports
  | ⟨name, ns, params, result, clauses⟩ => by
    rw [Matcher.arityReports]
    refine (Matcher.tells_clauseArityReports params.length 0 clauses).congr fun o => ?_
    rw [Matcher.hasSite_iff, Matcher.arity]

theorem Matcher.tells_clauseArityReports (arity : Nat) : ∀ (first : Nat) (cs : List Clause),
    Tells (SiteIn (Clause.HasSite arity) first cs) (Matcher.clauseArityReports arity cs)
  | first, [] => tells_nil first
  | first, ⟨s, ps, body⟩ :: cs => by
    rw [Matcher.clauseArityReports]
    exact (tells_clause arity body.tells_arityReports).cons
      (Matcher.tells_clauseArityReports arity (first + 1) cs)

end

/-! ## The walk over the matchers of a body -/

mutual

theorem Expr.arityReports_eq_flatMap : ∀ e : Expr,
    e.arityReports = e.matchers.flatMap Matcher.arityReports
  | .literal _ _ => rfl
  | .name _ _ => rfl
  | .call _ callee args => by
    rw [Expr.arityReports, Expr.matchers, List.flatMap_append, callee.arityReports_eq_flatMap,
      Expr.arityReportsAll_eq_flatMap args]
  | .cond _ c t e => by
    rw [Expr.arityReports, Expr.matchers, List.flatMap_append, List.flatMap_append,
      c.arityReports_eq_flatMap, t.arityReports_eq_flatMap, e.arityReports_eq_flatMap]
  | .letIn _ _ _ value body => by
    rw [Expr.arityReports, Expr.matchers, List.flatMap_append, value.arityReports_eq_flatMap,
      body.arityReports_eq_flatMap]
  | .access _ value _ _ => by
    rw [Expr.arityReports, Expr.matchers, value.arityReports_eq_flatMap]
  | .matching _ scrutinees m => by
    rw [Expr.arityReports, Expr.matchers, List.flatMap_append, List.flatMap_singleton,
      Expr.arityReportsAll_eq_flatMap scrutinees]

theorem Expr.arityReportsAll_eq_flatMap : ∀ es : List Expr,
    Expr.arityReportsAll es = (Expr.matchersAll es).flatMap Matcher.arityReports
  | [] => rfl
  | e :: es => by
    rw [Expr.arityReportsAll, Expr.matchersAll, List.flatMap_append, e.arityReports_eq_flatMap,
      Expr.arityReportsAll_eq_flatMap es]

end

/-- What is reported on a clause, and then on the matchers that its body applies. -/
def Clause.arityWalk (arity : Nat) (c : Clause) : List Diagnostic :=
  c.arityReport arity ++ c.body.matchers.flatMap Matcher.arityReports

theorem Matcher.arityReports_eq_flatMap (m : Matcher) :
    m.arityReports = m.clauses.flatMap (Clause.arityWalk m.arity) := by
  have hclauses (arity : Nat) (cs : List Clause) :
      Matcher.clauseArityReports arity cs = cs.flatMap (Clause.arityWalk arity) := by
    induction cs with
    | nil => rfl
    | cons c cs ih =>
      obtain ⟨s, ps, body⟩ := c
      rw [Matcher.clauseArityReports, List.flatMap_cons, Clause.arityWalk, ih,
        Expr.arityReports_eq_flatMap]
  obtain ⟨_, _, params, _, clauses⟩ := m
  rw [Matcher.arityReports, hclauses, Matcher.arity]

/-! ## Binding -/

/-- The clause as it is bound: in the same place of the source, with its patterns fitted. -/
structure Clause.Fits (config : Config) (arity : Nat) (c c' : Clause) : Prop where
  span_eq : c'.span = c.span
  patterns : ∃ params : List Argument, params.length = arity ∧
    Pattern.Fits config params c.patterns c'.patterns

theorem Clause.Fits.length_eq {config : Config} {arity : Nat} {c c' : Clause}
    (h : c.Fits config arity c') : c'.patterns.length = arity := by
  obtain ⟨params, hparams, hpatterns⟩ := h.patterns
  exact hpatterns.length_eq.trans hparams

variable {config : Config}

theorem Expr.BindsAll.length_eq {es es' : List Expr} (h : Expr.BindsAll config es es') :
    es'.length = es.length := by
  induction es generalizing es' with
  | nil =>
    cases h
    rfl
  | cons e es ih =>
    cases h with
    | cons _ hes => exact congrArg (· + 1) (ih hes)

theorem Expr.BindsAll.exists_getElem? : ∀ {es es' : List Expr} {i : Nat} {e : Expr},
    Expr.BindsAll config es es' → es[i]? = some e → ∃ e', es'[i]? = some e' ∧ e.Binds config e'
  | _, _, 0, _, .cons he _, rfl => ⟨_, rfl, he⟩
  | _, _, _ + 1, _, .cons _ hes, hi => hes.exists_getElem? hi

theorem Expr.Binds.children {e e' : Expr} (h : e.Binds config e') :
    Expr.BindsAll config e.children e'.children := by
  cases h with
  | literal => exact .nil
  | name => exact .nil
  | call hcallee hargs => exact .cons hcallee hargs
  | cond hc ht he => exact .cons hc (.cons ht (.cons he .nil))
  | letIn hvalue hbody => exact .cons hvalue (.cons hbody .nil)
  | access hvalue => exact .cons hvalue .nil
  | matching hscrutinees _ => exact hscrutinees

theorem Expr.Binds.exists_matcher? {e e' : Expr} {m : Matcher} (h : e.Binds config e')
    (hm : e.matcher? = some m) : ∃ m', e'.matcher? = some m' ∧ m.Binds config m' := by
  cases h with
  | matching _ hb =>
    cases hm
    exact ⟨_, rfl, hb⟩
  | _ => cases hm

theorem Matcher.ClausesBind.exists_getElem? : ∀ {params : List Argument} {cs cs' : List Clause} {i : Nat}
    {c : Clause}, Matcher.ClausesBind config params cs cs' → cs[i]? = some c →
    ∃ c', cs'[i]? = some c' ∧ c.Fits config params.length c' ∧ c.body.Binds config c'.body
  | params, _, _, 0, _, .cons hps hbody _, rfl =>
    ⟨_, rfl, ⟨rfl, params, rfl, Pattern.fits_of_bindAll hps⟩, hbody⟩
  | _, _, _, _ + 1, _, .cons _ _ hcs, hi => hcs.exists_getElem? hi

mutual

/-- Binding keeps the paths: at the end of each one is the fitted clause. -/
theorem Expr.HasSite.bound : ∀ {e e' : Expr} {o : ClauseSite}, e.HasSite o → e.Binds config e' →
    ∃ c', e'.HasSite ⟨o.path, o.arity, c'⟩ ∧ o.clause.Fits config o.arity c'
  | _, _, _, .child hi h, hb => by
    obtain ⟨x', hi', hx⟩ := hb.children.exists_getElem? hi
    obtain ⟨c', h', hfits⟩ := h.bound hx
    exact ⟨c', .child hi' h', hfits⟩
  | _, _, _, .matcher hm h, hb => by
    obtain ⟨m', hm', hbind⟩ := hb.exists_matcher? hm
    obtain ⟨c', h', hfits⟩ := h.bound hbind
    rw [← hb.children.length_eq]
    exact ⟨c', .matcher hm' h', hfits⟩

theorem Matcher.HasSite.bound : ∀ {m m' : Matcher} {o : ClauseSite}, m.HasSite o → m.Binds config m' →
    ∃ c', m'.HasSite ⟨o.path, o.arity, c'⟩ ∧ o.clause.Fits config o.arity c'
  | _, _, _, .clause hi, .mk hclauses => by
    obtain ⟨c', hi', hfits, -⟩ := hclauses.exists_getElem? hi
    exact ⟨c', .clause hi', hfits⟩
  | _, _, _, .body hi h, .mk hclauses => by
    obtain ⟨c₁, hi', -, hbody⟩ := hclauses.exists_getElem? hi
    obtain ⟨c', h', hfits⟩ := h.bound hbody
    exact ⟨c', .body hi' h', hfits⟩

end

/-- There is one clause at the end of a path. -/
theorem Matcher.HasSite.eq_of_path {m : Matcher} {o o' : ClauseSite} (h : m.HasSite o) (h' : m.HasSite o')
    (hpath : o.path = o'.path) : o = o' := by
  obtain ⟨sites, hsorted, hmem, -⟩ := m.tells_arityReports
  have hnodup : (sites.map ClauseSite.path).Nodup := by
    refine List.pairwise_map.mpr (hsorted.imp fun {a b} hlt he => ?_)
    rw [he] at hlt
    exact List.lt_irrefl _ hlt
  exact List.inj_on_of_nodup_map hnodup ((hmem o).mpr h) ((hmem o').mpr h') hpath

/-! ## The check and binding -/

theorem ClauseSite.flatMap_report (sites : List ClauseSite) :
    sites.flatMap ClauseSite.report = (sites.filter fun o => o.clause.patterns.length ≠ o.arity).map fun o =>
      .arityMismatch o.arity o.clause.patterns.length o.clause.span := by
  induction sites with
  | nil => rfl
  | cons o sites ih =>
    rw [List.flatMap_cons, ih, ClauseSite.report, Clause.arityReport]
    by_cases h : o.clause.patterns.length = o.arity
    · rw [if_pos h, List.filter_cons_of_neg (by simpa using h)]
      rfl
    · rw [if_neg h, List.filter_cons_of_pos (by simpa using h)]
      rfl

/-- The check walks over the clauses and the matchers that their bodies apply. It reports on each clause,
however deep it is nested, once and in source order, if its number of patterns is not that of the
placeholders of its matcher, and on nothing else. Where the matcher is bound, there is one clause at the end of
each path as before, with its patterns fitted, and these are more or fewer than they were exactly if the
check reports on the clause. -/
theorem Matcher.arityReports_exact (m : Matcher) :
    m.arityReports = m.clauses.flatMap (Clause.arityWalk m.arity) ∧
    ∃ sites : List ClauseSite, sites.Pairwise (·.path < ·.path) ∧ (∀ o, o ∈ sites ↔ m.HasSite o) ∧
      (m.arityReports = (sites.filter fun o => o.clause.patterns.length ≠ o.arity).map fun o =>
        .arityMismatch o.arity o.clause.patterns.length o.clause.span) ∧
      ∀ config m', m.bind config = .ok m' → ∀ o ∈ sites, ∃ c',
        (∀ o', m'.HasSite o' ∧ o'.path = o.path ↔ o' = ⟨o.path, o.arity, c'⟩) ∧
        o.clause.Fits config o.arity c' ∧
        (c'.patterns.length ≠ o.clause.patterns.length ↔ o.clause.patterns.length ≠ o.arity) := by
  obtain ⟨sites, hsorted, hmem, hreports⟩ := m.tells_arityReports
  rw [ClauseSite.flatMap_report] at hreports
  refine ⟨m.arityReports_eq_flatMap, sites, hsorted, hmem, hreports, fun config m' hbind o ho => ?_⟩
  obtain ⟨c', hsite, hfits⟩ := ((hmem o).mp ho).bound (Matcher.binds_of_bind hbind)
  refine ⟨c', fun o' => ⟨fun ⟨h', hpath⟩ => h'.eq_of_path hsite hpath, ?_⟩, hfits, ?_⟩
  · rintro rfl
    exact ⟨hsite, rfl⟩
  · rw [hfits.length_eq]
    exact ne_comm

/-- A clause that lacks a pattern. The matcher in its body is applied to what another one gives, and that one
has a pattern too many. -/
theorem Matcher.arityReports_exact_nested :
    let wide : Matcher := ⟨"wide", default, [⟨"%arg4", .constant "Int"⟩], .constant "Int",
      [⟨⟨5, 6⟩, [.ignore default, .ignore default], .literal default (.int 0)⟩]⟩
    let inner : Matcher := ⟨"inner", default, [⟨"%arg3", .constant "Int"⟩], .constant "Int",
      [⟨⟨7, 8⟩, [.capture default "y" none none], .name default "y"⟩]⟩
    let m : Matcher := ⟨"outer", default,
      [⟨"%arg1", .constant "Int"⟩, ⟨"%arg2", .constant "Int"⟩], .constant "Int",
      [⟨⟨1, 2⟩, [.capture default "x" none none],
        .matching default [.matching default [.name default "x"] wide] inner⟩]⟩
    m.arityReports = [.arityMismatch 2 1 ⟨1, 2⟩, .arityMismatch 1 2 ⟨5, 6⟩] ∧
    ∃ (m' : Matcher) (sites : List ClauseSite), m.bind {} = .ok m' ∧ (∀ o, o ∈ sites ↔ m.HasSite o) ∧
      ∀ o ∈ sites, ∃ c', m'.HasSite ⟨o.path, o.arity, c'⟩ ∧
        (c'.patterns.length ≠ o.clause.patterns.length ↔ o.clause.patterns.length ≠ o.arity) := by
  intro wide inner m
  obtain ⟨m', hbind⟩ : ∃ m', m.bind {} = .ok m' := ⟨_, rfl⟩
  obtain ⟨-, sites, -, hmem, -, hbound⟩ := m.arityReports_exact
  refine ⟨by decide, m', sites, hbind, hmem, fun o ho => ?_⟩
  obtain ⟨c', hsite, -, haltered⟩ := hbound {} m' hbind o ho
  exact ⟨c', ((hsite _).mpr rfl).1, haltered⟩

end Clausal
