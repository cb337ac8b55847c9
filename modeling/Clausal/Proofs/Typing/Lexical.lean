import Clausal.Proofs.Typing.Locals
import Clausal.Proofs.Typing.Totality

/-!
# Name resolution is lexical

Every name, constructor and field that a piece of syntax mentions is listed here with what is bound around
it: the bindings and clauses in whose bodies it stands, and the captures before it in its own clause. The
list depends neither on types nor on places, and each mention is found or not by itself. A run of the
checker reports the mentions that are not found, in their order, and leaves the scopes as they were, but
for the captures of a single pattern.
-/
namespace Clausal

open Checker

/-- What the syntax refers to, and the source text that a report on it belongs to. -/
inductive Mention where
  /-- A name, with the names that are bound around it, the innermost first. -/
  | name (binders : List String) (n : String) (span : Span)
  | constr (c : String) (span : Span)
  | field (constr name : String) (span : Span)

namespace Mention

def diagnostic : Mention → Diagnostic
  | .name _ n s => .symbolNotFound n s
  | .constr c s => .symbolNotFound c s
  | .field _ n s => .symbolNotFound n s

variable (decls : Declarations) (known : List String)

/-- A name is bound around the mention, known from outside, or declared; a constructor is declared, unless
it need not be; and a field is one of its constructor, if that is declared. -/
def isFound : Mention → Bool
  | .name binders n _ => binders.contains n || known.contains n || (decls.env.global? n).isSome
  | .constr c _ => (decls.env.constr? c).isSome || !decls.config.reportUndeclaredConstrs
  | .field c n _ => (decls.env.constr? c).all fun fields => (fields.lookup n).isSome

/-- The reports on the mentions that are not found. -/
def unresolved (ms : List Mention) : List Diagnostic :=
  (ms.filter fun o => !o.isFound decls known).map diagnostic

end Mention

section

variable (config : Config)

namespace Pattern

/-- A field by position is mentioned by a pattern that looks at it. -/
def positionMention (constr name : String) : Pattern → List Mention
  | .ignore _ => []
  | p => [.field constr name p.span]

mutual

/-- What a pattern mentions behind these binders. -/
def mentions (binders : List String) : Pattern → List Mention
  | .ignore _ => []
  | .capture _ _ _ _ => []
  | .equal _ (.literal _) _ => []
  | .equal s (.name n) _ => [.name binders n s]
  | .record _ c cs fields _ => .constr c cs :: fieldMentions binders c fields
  | .tuple _ c cs fields _ => .constr c cs :: positionMentions binders c 0 fields
  | .group _ _ => []

/-- What the patterns of named fields mention, and the fields. -/
def fieldMentions (binders : List String) (constr : String) : List FieldPattern → List Mention
  | [] => []
  | ⟨n, ns, p⟩ :: fs => .field constr n ns :: (mentions binders p ++
    fieldMentions (p.captures.reverse ++ binders) constr fs)

/-- What the patterns from this position on mention, and the fields. -/
def positionMentions (binders : List String) (constr : String) : Nat → List Pattern → List Mention
  | _, [] => []
  | i, p :: ps => positionMention constr (config.fieldName i) p ++ (mentions binders p ++
    positionMentions (p.captures.reverse ++ binders) constr (i + 1) ps)

end

/-- What the patterns of a clause mention, behind the captures to their left. -/
def mentionsAll (binders : List String) : List Pattern → List Mention
  | [] => []
  | p :: ps => p.mentions config binders ++ mentionsAll (p.captures.reverse ++ binders) ps

end Pattern

mutual

/-- What an expression mentions behind these binders. -/
def Expr.mentions (binders : List String) : Expr → List Mention
  | .literal _ _ => []
  | .name s n => [.name binders n s]
  | .call _ callee args => callee.mentions binders ++ Expr.mentionsAll binders args
  | .cond _ c t e => c.mentions binders ++ t.mentions binders ++ e.mentions binders
  | .letIn _ n _ value body => value.mentions binders ++ body.mentions (n :: binders)
  | .access _ value _ _ => value.mentions binders
  | .matching _ scrutinees ⟨_, _, _, _, clauses⟩ =>
    Expr.mentionsAll binders scrutinees ++ Matcher.clauseMentions binders clauses

/-- What expressions mention. -/
def Expr.mentionsAll (binders : List String) : List Expr → List Mention
  | [] => []
  | e :: es => e.mentions binders ++ Expr.mentionsAll binders es

/-- What clauses mention, each body behind the captures of its own clause. -/
def Matcher.clauseMentions (binders : List String) : List Clause → List Mention
  | [] => []
  | ⟨_, patterns, body⟩ :: clauses => Pattern.mentionsAll config binders patterns ++
    body.mentions ((Pattern.capturesAll patterns).reverse ++ binders) ++
    Matcher.clauseMentions binders clauses

end

/-- What a matcher mentions. Its own name is bound in it, and those of the matchers inside it are not. -/
def Matcher.mentions (m : Matcher) : List Mention :=
  Matcher.clauseMentions config [m.name] m.clauses

end

/-! ## The reports of a walk with mentions -/

/-- The problem is something unknown: a name, a constructor or a field. -/
def Diagnostic.isNotFound : Diagnostic → Bool
  | .typeMismatch _ _ _ => false
  | .circularType _ _ _ => false
  | .symbolNotFound _ _ => true
  | .arityMismatch _ _ _ => false

namespace Mention

variable {decls : Declarations} {known : List String}

theorem unresolved_append (l₁ l₂ : List Mention) :
    unresolved decls known (l₁ ++ l₂) = unresolved decls known l₁ ++ unresolved decls known l₂ := by
  rw [unresolved, List.filter_append, List.map_append]
  rfl

theorem unresolved_cons (o : Mention) (ms : List Mention) :
    unresolved decls known (o :: ms) = unresolved decls known [o] ++ unresolved decls known ms :=
  unresolved_append [o] ms

theorem unresolved_singleton (o : Mention) :
    unresolved decls known [o] = if o.isFound decls known then [] else [o.diagnostic] := by
  cases h : o.isFound decls known <;> simp [unresolved, h]

theorem filter_unresolved (ms : List Mention) :
    (unresolved decls known ms).filter Diagnostic.isNotFound = unresolved decls known ms := by
  refine List.filter_eq_self.mpr fun d hd => ?_
  obtain ⟨o, -, rfl⟩ := List.mem_map.mp hd
  cases o <;> rfl

end Mention

open Mention

variable {decls : Declarations} {known : List String} {config : Config}

theorem missing_eq (binders : List String) (n : String) (s : Span) :
    missing decls (binders ++ known) n s = unresolved decls known [.name binders n s] := by
  have hfound : InScope decls (binders ++ known) n ↔
      (Mention.name binders n s).isFound decls known = true := by
    simp [InScope, isFound, or_assoc]
  rw [missing, unresolved_singleton]
  simp only [hfound]
  rfl

theorem undeclared_eq (c : String) (s : Span) :
    undeclared decls c s = unresolved decls known [.constr c s] := by
  rw [undeclared, unresolved_singleton, isFound]
  cases decls.env.constr? c <;> cases decls.config.reportUndeclaredConstrs <;> rfl

theorem lacking_eq (c n : String) (s : Span) :
    lacking n s (decls.env.constr? c) = unresolved decls known [.field c n s] := by
  rw [unresolved_singleton, isFound]
  cases decls.env.constr? c with
  | none => rfl
  | some fields =>
    rw [lacking, Option.all_some]
    cases fields.lookup n <;> rfl

namespace Pattern

/-- A pattern bound to a field projects it by its name, unless it ignores it. -/
theorem positionMention_eq {p : Pattern} {parent : Place} {n : String} (c : String)
    (h : p.BoundAt config (parent.access n)) :
    ((p.place?.bind Place.fieldName?).map fun n => lacking n p.span (decls.env.constr? c)).getD [] =
      unresolved decls known (positionMention c n p) := by
  cases p with
  | ignore s => rfl
  | capture s m ty place =>
    cases h
    exact lacking_eq c n s
  | equal s e place =>
    cases h
    exact lacking_eq c n s
  | record s c' cs fields place =>
    obtain ⟨rfl, -⟩ := h
    exact lacking_eq c n s
  | tuple s c' cs fields place =>
    obtain ⟨rfl, -⟩ := h
    exact lacking_eq c n s
  | group s members => cases h

mutual

theorem reports_eq : ∀ {p : Pattern} {place : Place} (binders : List String), p.BoundAt config place →
    p.reports decls (binders ++ known) = unresolved decls known (p.mentions config binders)
  | .ignore _, _, _, _ => rfl
  | .capture _ _ _ _, _, _, _ => rfl
  | .equal _ (.literal _) _, _, _, _ => rfl
  | .equal s (.name n) _, _, binders, _ => missing_eq binders n s
  | .record _ c cs fields _, place, binders, ⟨_, h⟩ => by
    rw [reports, mentions, unresolved_cons, undeclared_eq, fieldReports_eq binders c h]
  | .tuple _ c cs fields _, place, binders, ⟨_, h⟩ => by
    rw [reports, mentions, unresolved_cons, undeclared_eq, positionReports_eq binders c h]

theorem fieldReports_eq : ∀ {fs : List FieldPattern} {parent : Place} (binders : List String)
    (c : String), FieldsBoundAt config parent fs →
    fieldReports decls (binders ++ known) (decls.env.constr? c) fs =
      unresolved decls known (fieldMentions config binders c fs)
  | [], _, _, _, _ => rfl
  | ⟨n, ns, p⟩ :: fs, parent, binders, c, ⟨hp, hfs⟩ => by
    rw [fieldReports, fieldMentions, unresolved_cons, unresolved_append, lacking_eq,
      reports_eq binders hp, ← List.append_assoc, fieldReports_eq _ c hfs, List.append_assoc]

theorem positionReports_eq : ∀ {ps : List Pattern} {parent : Place} {i : Nat} (binders : List String)
    (c : String), PositionsBoundAt config parent i ps →
    positionReports decls (binders ++ known) (decls.env.constr? c) ps =
      unresolved decls known (positionMentions config binders c i ps)
  | [], _, _, _, _, _ => rfl
  | p :: ps, parent, i, binders, c, ⟨hp, hps⟩ => by
    rw [positionReports, positionMentions, unresolved_append, unresolved_append, positionMention_eq c hp,
      reports_eq binders hp, ← List.append_assoc p.captures.reverse, positionReports_eq _ c hps,
      List.append_assoc]

end

theorem reportsAll_eq : ∀ {ps : List Pattern} {params : List Argument} (binders : List String),
    AllBoundAt config ps params →
    reportsAll decls (binders ++ known) ps = unresolved decls known (mentionsAll config binders ps)
  | [], [], _, _ => rfl
  | p :: ps, _ :: _, binders, ⟨hp, hps⟩ => by
    rw [reportsAll, mentionsAll, unresolved_append, reports_eq binders hp, ← List.append_assoc,
      reportsAll_eq _ hps]

end Pattern

mutual

theorem Expr.reports_filter : ∀ {e : Expr} (binders : List String), e.Bound config →
    (e.reports decls (binders ++ known)).filter Diagnostic.isNotFound =
      unresolved decls known (e.mentions config binders)
  | .literal _ _, _, _ => rfl
  | .name s n, binders, _ => by
    rw [Expr.reports, Expr.mentions, missing_eq, filter_unresolved]
  | .call _ callee args, binders, ⟨hcallee, hargs⟩ => by
    rw [Expr.reports, Expr.mentions, List.filter_append, unresolved_append,
      Expr.reports_filter binders hcallee, Expr.reportsAll_filter binders hargs]
  | .cond _ c t e, binders, ⟨hc, ht, he⟩ => by
    rw [Expr.reports, Expr.mentions, List.filter_append, List.filter_append, unresolved_append,
      unresolved_append, Expr.reports_filter binders hc, Expr.reports_filter binders ht,
      Expr.reports_filter binders he]
  | .letIn _ n _ value body, binders, ⟨hvalue, hbody⟩ => by
    rw [Expr.reports, Expr.mentions, List.filter_append, unresolved_append,
      Expr.reports_filter binders hvalue, ← List.cons_append, Expr.reports_filter _ hbody]
  | .access _ value _ _, binders, h => by
    rw [Expr.Bound] at h
    rw [Expr.reports, Expr.mentions, Expr.reports_filter binders h]
  | .matching s scrutinees ⟨_, _, params, _, clauses⟩, binders, ⟨hscrutinees, hclauses⟩ => by
    -- a wrong number of scrutinees is no matter of names
    have harity : (if params.length = scrutinees.length then []
        else [Diagnostic.arityMismatch params.length scrutinees.length s]).filter
          Diagnostic.isNotFound = [] := by
      split <;> rfl
    rw [Expr.reports, Expr.mentions, List.filter_append, List.filter_append, unresolved_append, harity,
      Expr.reportsAll_filter binders hscrutinees, Matcher.clauseReports_filter binders hclauses,
      List.nil_append]

theorem Expr.reportsAll_filter : ∀ {es : List Expr} (binders : List String), Expr.BoundAll config es →
    (Expr.reportsAll decls (binders ++ known) es).filter Diagnostic.isNotFound =
      unresolved decls known (Expr.mentionsAll config binders es)
  | [], _, _ => rfl
  | e :: es, binders, ⟨he, hes⟩ => by
    rw [Expr.reportsAll, Expr.mentionsAll, List.filter_append, unresolved_append,
      Expr.reports_filter binders he, Expr.reportsAll_filter binders hes]

theorem Matcher.clauseReports_filter : ∀ {params : List Argument} {cs : List Clause}
    (binders : List String), Matcher.ClausesBound config params cs →
    (Matcher.clauseReports decls (binders ++ known) cs).filter Diagnostic.isNotFound =
      unresolved decls known (Matcher.clauseMentions config binders cs)
  | _, [], _, _ => rfl
  | params, ⟨_, patterns, body⟩ :: cs, binders, ⟨hpatterns, hbody, hcs⟩ => by
    rw [Matcher.clauseReports, Matcher.clauseMentions, List.filter_append, List.filter_append,
      unresolved_append, unresolved_append, Pattern.reportsAll_eq binders hpatterns, filter_unresolved,
      ← List.append_assoc, Expr.reports_filter _ hbody, Matcher.clauseReports_filter binders hcs]

end

/-! ## Runs of the checker -/

namespace Checker

/-- The run has a result. Among the reports that it adds, those of something unknown are, in this order,
those on the mentions that are not found. The result and the scopes left behind are as stated. -/
def Resolves {α : Type} (decls : Declarations) (c : Checker) (x : CheckM α) (ms : List Mention)
    (R : α → List Scope → Prop) : Prop :=
  ∃ a c' new, x decls c = .ok a c' ∧ c'.diagnostics = c.diagnostics ++ new ∧
    new.filter Diagnostic.isNotFound = unresolved decls c.known ms ∧ R a c'.scopes

variable {c : Checker} {α : Type} {names : List String} {ds : List Diagnostic} {ms : List Mention}

theorem Adds.resolves {x : CheckM α} {Q : List Scope → Prop} {R : α → List Scope → Prop}
    (hx : Adds decls c x names ds) (hcompletes : Completes decls c x Q)
    (hds : ds.filter Diagnostic.isNotFound = unresolved decls c.known ms)
    (hR : ∀ a c', x decls c = .ok a c' → R a c'.scopes) : Resolves decls c x ms R := by
  obtain ⟨a, c', hrun, -⟩ := Ends.exists_ok hcompletes
  obtain ⟨new, hnew, hlexical⟩ := (hx a c' hrun).logs
  refine ⟨a, c', new, hrun, hnew, ?_, hR a c' hrun⟩
  rw [← hds, ← hlexical, List.filter_filter]
  refine List.filter_congr fun d _ => ?_
  cases d <;> rfl

/-- Whatever the checker knows of types, it ends with a result and reports as unknown exactly those names,
constructors and fields that are not found from where they are mentioned, in the order of the syntax. A
matcher and an expression leave the scopes as they were. A pattern adds its captures to the innermost
scope, where of two of one name the last is found, and leaves the other scopes alone. -/
theorem resolution_lexical (decls : Declarations) (config : Config) (c : Checker) :
    (∀ m : Matcher, m.Bound config →
      Resolves decls c m.check (m.mentions config) fun _ scopes => scopes = c.scopes) ∧
    (∀ e : Expr, e.Bound config →
      Resolves decls c e.infer (e.mentions config []) fun _ scopes => scopes = c.scopes) ∧
    ∀ (p : Pattern) (place : Place) (scope : Scope) (outer : List Scope), p.BoundAt config place →
      c.scopes = scope :: outer →
      Resolves decls c p.check (p.mentions config []) fun (_, q) scopes =>
        q.recorded.map Prod.fst = p.captures ∧ ∃ inner, scopes = inner :: outer ∧ ∀ n,
          (n ∉ p.captures → inner.lookup n = scope.lookup n) ∧
          ∀ l t r, q.recorded = l ++ (n, t) :: r → n ∉ r.map Prod.fst → inner.lookup n = some t := by
  refine ⟨fun m hm => ?_, fun e he => ?_, fun p place scope outer hp hscopes => ?_⟩
  · refine (Matcher.check_adds m c).resolves (Matcher.check_completes hm c) ?_ fun _ _ h =>
      (Matcher.check_adds m c).scopes_same h
    obtain ⟨name, _, params, _, clauses⟩ := m
    exact Matcher.clauseReports_filter [name] hm
  · exact (Expr.infer_adds e c).resolves (Expr.infer_completes e he.placed)
      (Expr.reports_filter [] he) fun _ _ h => (Expr.infer_adds e c).scopes_same h
  · have hopen : c.scopes ≠ [] := by
      rw [hscopes]
      exact List.cons_ne_nil scope outer
    have hreports : (p.reports decls c.known).filter Diagnostic.isNotFound =
        unresolved decls c.known (p.mentions config []) := by
      rw [← filter_unresolved, ← Pattern.reports_eq [] hp]
      rfl
    refine (Pattern.check_adds p c).resolves (Pattern.check_completes p hp.isBound hopen) hreports ?_
    rintro ⟨t, q⟩ c' hrun
    obtain ⟨hinner, hnames⟩ := Pattern.check_recorded hrun hscopes
    refine ⟨hnames, _, hinner, fun n => ⟨fun hn => lookup_recorded.1 (hnames ▸ hn), ?_⟩⟩
    exact lookup_recorded.2

/-- The second pattern compares with the capture of the first. A binding is not known in its own value, the
name of the inner matcher is not known in its clause, and the captures of the first clause are not known in
the second one. The outer matcher is known in both. -/
theorem resolution_lexical_nested :
    let int : Ty := .constant "Int"
    let inner : Matcher := ⟨"inner", default, [⟨"%arg3", int⟩], int,
      [⟨default, [.capture default "z" none none],
        .call default (.name ⟨3, 4⟩ "inner") [.name default "y", .name default "z"]⟩]⟩
    let m : Matcher := ⟨"outer", default, [⟨"%arg1", int⟩, ⟨"%arg2", int⟩], int,
      [⟨default, [.capture default "x" none none, .equal default (.name "x") none],
        .letIn default "y" default (.name ⟨1, 2⟩ "y")
          (.matching default [.name default "outer"] inner)⟩,
      ⟨default, [.ignore default, .ignore default], .call default (.name default "outer")
        [.name ⟨5, 6⟩ "x"]⟩]⟩
    ∃ m' c' new, m.bind {} = .ok m' ∧
      (∃ a, m'.check ⟨{}, {}⟩ { subst := {} } = .ok a c') ∧ c'.diagnostics = new ∧
      new.filter Diagnostic.isNotFound = [.symbolNotFound "y" ⟨1, 2⟩, .symbolNotFound "inner" ⟨3, 4⟩,
        .symbolNotFound "x" ⟨5, 6⟩] ∧ c'.scopes = [] := by
  intro int inner m
  obtain ⟨m', hbind, hunresolved⟩ : ∃ m', m.bind {} = .ok m' ∧
      unresolved ⟨{}, {}⟩ [] (m'.mentions {}) = [.symbolNotFound "y" ⟨1, 2⟩,
        .symbolNotFound "inner" ⟨3, 4⟩, .symbolNotFound "x" ⟨5, 6⟩] := ⟨_, rfl, by decide +kernel⟩
  obtain ⟨hmatcher, -, -⟩ := resolution_lexical ⟨{}, {}⟩ {} { subst := {} }
  obtain ⟨a, c', new, hrun, hnew, hreports, hscopes⟩ := hmatcher m' (Matcher.bind_bound hbind)
  exact ⟨m', c', new, hbind, ⟨a, hrun⟩, hnew, hreports.trans hunresolved, hscopes⟩

end Checker
end Clausal
