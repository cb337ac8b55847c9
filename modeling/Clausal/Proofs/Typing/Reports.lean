import Clausal.Proofs.Pattern.Steps
import Clausal.Proofs.Typing.Steps

/-!
# Problems of names, read off the syntax

Whether a name is known depends on the scopes alone: captures are known to their right in the clause
and in its body, bindings in their bodies. The problems that do not depend on types are listed here by
a walk that knows no types, and a run of the checker is shown to add these and to leave the scopes as
they were, but for the captures of a single pattern.
-/
namespace Clausal

open Checker

section

variable (decls : Declarations)

/-- The report on a name that is not in scope. -/
def missing (known : List String) (n : String) (s : Span) : List Diagnostic :=
  if InScope decls known n then [] else [.symbolNotFound n s]

/-- The report on a constructor that is not declared. -/
def undeclared (constr : String) (s : Span) : List Diagnostic :=
  if (decls.env.constr? constr).isNone && decls.config.reportUndeclaredConstrs then
    [.symbolNotFound constr s]
  else []

/-- The report on a field that a declared constructor lacks. -/
def lacking (name : String) (s : Span) : Option Fields → List Diagnostic
  | none => []
  | some fields => if (fields.lookup name).isNone then [.symbolNotFound name s] else []

namespace Pattern

mutual

/-- The reports on a pattern where these names are known. -/
def reports (known : List String) : Pattern → List Diagnostic
  | .ignore _ => []
  | .capture _ _ _ _ => []
  | .equal _ (.literal _) _ => []
  | .equal s (.name n) _ => missing decls known n s
  | .record _ c cs fields _ =>
    undeclared decls c cs ++ fieldReports known (decls.env.constr? c) fields
  | .tuple _ c cs fields _ =>
    undeclared decls c cs ++ positionReports known (decls.env.constr? c) fields
  | .group _ _ => []

/-- The reports on the patterns of named fields. -/
def fieldReports (known : List String) (declared : Option Fields) : List FieldPattern → List Diagnostic
  | [] => []
  | ⟨n, ns, p⟩ :: fs => lacking n ns declared ++ reports known p ++
    fieldReports (p.captures.reverse ++ known) declared fs

/-- The reports on the patterns of fields by position. -/
def positionReports (known : List String) (declared : Option Fields) : List Pattern → List Diagnostic
  | [] => []
  | p :: ps => ((p.place?.bind Place.fieldName?).map fun n => lacking n p.span declared).getD [] ++
    reports known p ++ positionReports (p.captures.reverse ++ known) declared ps

end

/-- The reports on the patterns of a clause. -/
def reportsAll (known : List String) : List Pattern → List Diagnostic
  | [] => []
  | p :: ps => p.reports decls known ++ reportsAll (p.captures.reverse ++ known) ps

end Pattern

mutual

/-- The reports on an expression where these names are known. -/
def Expr.reports (known : List String) : Expr → List Diagnostic
  | .literal _ _ => []
  | .name s n => missing decls known n s
  | .call _ callee args => callee.reports known ++ Expr.reportsAll known args
  | .cond _ c t e => c.reports known ++ t.reports known ++ e.reports known
  | .letIn _ n _ value body => value.reports known ++ body.reports (n :: known)
  | .access _ value _ _ => value.reports known
  | .matching s scrutinees ⟨_, _, params, _, clauses⟩ =>
    (if params.length = scrutinees.length then []
      else [.arityMismatch params.length scrutinees.length s]) ++
    Expr.reportsAll known scrutinees ++ Matcher.clauseReports known clauses

/-- The reports on expressions. -/
def Expr.reportsAll (known : List String) : List Expr → List Diagnostic
  | [] => []
  | e :: es => e.reports known ++ Expr.reportsAll known es

/-- The reports on clauses, each with its own captures. -/
def Matcher.clauseReports (known : List String) : List Clause → List Diagnostic
  | [] => []
  | ⟨_, patterns, body⟩ :: clauses => Pattern.reportsAll decls known patterns ++
    body.reports ((Pattern.capturesAll patterns).reverse ++ known) ++
    Matcher.clauseReports known clauses

end

end

variable {decls : Declarations} {c c' : Checker} {names names' : List String}
  {ds ds' : List Diagnostic} {α : Type}

/-! ## Patterns -/

namespace Pattern

theorem adds_ofBound (place : Option Place) : Adds decls c (Place.ofBound place) [] [] := by
  cases place with
  | none =>
    intro a c' h
    cases h
  | some place => exact adds_pure place

theorem declaredFields_spec {constr : String} {s : Span} {fields : Option Fields}
    (h : declaredFields constr s decls c = .ok fields c') :
    Turns c c' [] (undeclared decls constr s) ∧ fields = decls.env.constr? constr := by
  rw [undeclared]
  obtain ⟨decls₁, c₁, hread, h⟩ := exists_of_check_bind_eq_ok h
  cases hread
  obtain ⟨decls₂, c₂, hread, h⟩ := exists_of_check_bind_eq_ok h
  cases hread
  dsimp only at h
  by_cases hreported :
      ((decls.env.constr? constr).isNone && decls.config.reportUndeclaredConstrs) = true
  · rw [if_pos hreported] at h ⊢
    obtain ⟨u, c₃, hreport, h⟩ := exists_of_check_bind_eq_ok h
    cases h
    exact ⟨adds_report rfl u _ hreport, rfl⟩
  · rw [if_neg hreported] at h ⊢
    cases h
    exact ⟨.of_eq rfl rfl, rfl⟩

theorem checkField_adds (declared : Option Fields) (n : String) (s : Span) :
    Adds decls c (checkField declared n s) [] (lacking n s declared) := by
  cases declared with
  | none => exact adds_pure ()
  | some fields =>
    rw [checkField, lacking]
    by_cases h : (fields.lookup n).isNone = true
    · rw [if_pos h, if_pos h]
      exact adds_report rfl
    · rw [if_neg h, if_neg h]
      exact adds_pure ()

theorem unifyTuple_adds (t : Ty) (ts : List Ty) (s : Span) :
    Adds decls c (unifyTuple t ts s) [] [] := by
  intro a c' h
  obtain ⟨decls₁, c₁, hread, h⟩ := exists_of_check_bind_eq_ok h
  cases hread
  exact adds_unifyAt _ _ _ a c' h

theorem expectedTy_adds (t : Ty) (s : Span) (e : Expected) (place : Option Place) :
    Adds decls c (expectedTy t s e) [] (reports decls c.known (.equal s e place)) := by
  cases e with
  | literal l =>
    rw [expectedTy, reports]
    exact adds_pure _
  | name n =>
    intro a c'' h
    rw [expectedTy] at h
    rw [reports, missing]
    obtain ⟨r, c', hlookup, h⟩ := exists_of_check_bind_eq_ok h
    obtain ⟨hturns, hscope⟩ := lookup?_spec hlookup
    cases r with
    | some ty =>
      rw [if_pos (hscope.mp rfl)]
      cases h
      exact hturns
    | none =>
      rw [if_neg fun hn => Bool.false_ne_true (hscope.mpr hn)]
      obtain ⟨u, c₁, hreport, h⟩ := exists_of_check_bind_eq_ok h
      cases h
      exact hturns.trans (adds_report rfl u _ hreport)

/-- A capture is a local behind its pattern. -/
theorem adds_captured (valueTy declared : Ty) (s : Span) (n : String) (place : Option Place) :
    Adds decls c (do
      let ty ← unifyAt valueTy declared s
      bindLocal n ty
      return (ty, capture s n (some ty) place)) [n] [] := by
  refine (adds_unifyAt valueTy declared s).bind_quiet fun ty c₁ _ _ => ?_
  exact (adds_bindLocal n ty).bind fun _ _ _ _ => adds_pure _

/-- The first part of a destructured value is checked before the others, which know its captures. -/
theorem adds_row {β γ : Type} {first : CheckM (Ty × α)} {others : CheckM (List Ty × β)} (mk : α → β → γ)
    (hfirst : Adds decls c first names ds)
    (hothers : ∀ c₁ : Checker, c₁.known = names.reverse ++ c.known → Adds decls c₁ others names' ds') :
    Adds decls c (do
      let (ty, a) ← first
      let (tys, b) ← others
      return (ty :: tys, mk a b)) (names ++ names') (ds ++ ds') :=
  hfirst.bind fun _ c₁ _ h₁ => (hothers c₁ h₁).map _

mutual

theorem check_adds : ∀ (p : Pattern) (c : Checker),
    Adds decls c p.check p.captures (p.reports decls c.known)
  | .ignore s, c => adds_fresh.map _
  | .group _ _, c => fun a c' h => by cases h
  | .capture s n annotation place, c => by
    rw [check]
    refine (adds_ofBound place).bind_quiet fun p c₁ _ _ => ?_
    refine (adds_typeOfPlace p).bind_quiet fun valueTy c₂ _ _ => ?_
    cases annotation with
    | some t => exact adds_captured valueTy t s n place
    | none => exact adds_fresh.bind_quiet fun declared _ _ _ => adds_captured valueTy declared s n place
  | .equal s e place, c => by
    rw [check, captures_equal]
    refine (adds_ofBound place).bind_quiet fun p c₁ _ h₁ => ?_
    refine (adds_typeOfPlace p).bind_quiet fun valueTy c₂ _ h₂ => ?_
    rw [← h₁, ← h₂]
    intro a c'' h
    obtain ⟨expected, c₃, hrun, h⟩ := exists_of_check_bind_eq_ok h
    have h₃ := expectedTy_adds valueTy s e place expected c₃ hrun
    have h₄ := (adds_unifyAt valueTy expected s).map _ a c'' h
    simpa only [List.append_nil] using h₃.trans h₄
  | .record s constr cs fields place, c => by
    rw [check, captures_record, reports]
    refine (adds_ofBound place).bind_quiet fun p c₁ _ h₁ => ?_
    refine (adds_typeOfPlace p).bind_quiet fun valueTy c₂ _ h₂ => ?_
    rw [← h₁, ← h₂]
    intro a c'' h
    obtain ⟨declared, c₃, hrun, h⟩ := exists_of_check_bind_eq_ok h
    obtain ⟨h₃, rfl⟩ := declaredFields_spec hrun
    obtain ⟨⟨tys, fields'⟩, c₄, hrun, h⟩ := exists_of_check_bind_eq_ok h
    have h₄ := checkFields_adds _ fields c₃ _ c₄ hrun
    have h₅ := (unifyTuple_adds valueTy tys s).map _ a c'' h
    have hknown : c₃.known = c₂.known := h₃.known_eq
    rw [hknown] at h₄
    simpa only [List.append_nil, List.nil_append] using (h₃.trans h₄).trans h₅
  | .tuple s constr cs fields place, c => by
    rw [check, captures_tuple, reports]
    refine (adds_ofBound place).bind_quiet fun p c₁ _ h₁ => ?_
    refine (adds_typeOfPlace p).bind_quiet fun valueTy c₂ _ h₂ => ?_
    rw [← h₁, ← h₂]
    intro a c'' h
    obtain ⟨declared, c₃, hrun, h⟩ := exists_of_check_bind_eq_ok h
    obtain ⟨h₃, rfl⟩ := declaredFields_spec hrun
    obtain ⟨⟨tys, fields'⟩, c₄, hrun, h⟩ := exists_of_check_bind_eq_ok h
    have h₄ := checkPositions_adds _ fields c₃ _ c₄ hrun
    have h₅ := (unifyTuple_adds valueTy tys s).map _ a c'' h
    have hknown : c₃.known = c₂.known := h₃.known_eq
    rw [hknown] at h₄
    simpa only [List.append_nil, List.nil_append] using (h₃.trans h₄).trans h₅

theorem checkFields_adds : ∀ (declared : Option Fields) (fs : List FieldPattern) (c : Checker),
    Adds decls c (checkFields declared fs) (fieldCaptures fs) (fieldReports decls c.known declared fs)
  | declared, [], c => by
    rw [checkFields, fieldReports]
    exact adds_pure _
  | declared, ⟨n, ns, p⟩ :: fs, c => by
    rw [checkFields, fieldReports, fieldCaptures_cons, List.append_assoc]
    refine (checkField_adds declared n ns).bind fun _ c₁ _ h₁ => ?_
    have hknown : c₁.known = c.known := h₁
    rw [← hknown]
    refine adds_row (fun q gs => FieldPattern.mk n ns q :: gs) (check_adds p c₁) fun c₂ h₂ => ?_
    rw [← h₂]
    exact checkFields_adds declared fs c₂

theorem checkPositions_adds : ∀ (declared : Option Fields) (ps : List Pattern) (c : Checker),
    Adds decls c (checkPositions declared ps) (capturesAll ps)
      (positionReports decls c.known declared ps)
  | declared, [], c => by
    rw [checkPositions, positionReports]
    exact adds_pure _
  | declared, p :: ps, c => by
    rw [checkPositions, positionReports, capturesAll_cons]
    cases p.place?.bind Place.fieldName? with
    | none =>
      refine adds_row (· :: ·) (check_adds p c) fun c₁ h₁ => ?_
      rw [← h₁]
      exact checkPositions_adds declared ps c₁
    | some n =>
      rw [List.append_assoc]
      refine (checkField_adds declared n p.span).bind fun _ c₁ _ h₁ => ?_
      have hknown : c₁.known = c.known := h₁
      rw [← hknown]
      refine adds_row (· :: ·) (check_adds p c₁) fun c₂ h₂ => ?_
      rw [← h₂]
      exact checkPositions_adds declared ps c₂

end

theorem checkAll_adds : ∀ (ps : List Pattern) (c : Checker),
    Adds decls c (checkAll ps) (capturesAll ps) (reportsAll decls c.known ps)
  | [], c => adds_pure _
  | p :: ps, c => by
    rw [checkAll, reportsAll, capturesAll_cons]
    intro a c'' h
    obtain ⟨⟨ty, q⟩, c₁, hrun, h⟩ := exists_of_check_bind_eq_ok h
    have h₁ := check_adds p c _ c₁ hrun
    have h₂ := (checkAll_adds ps c₁).map _ a c'' h
    rw [h₁.known_eq] at h₂
    exact h₁.trans h₂

end Pattern

/-! ## Expressions and clauses -/

theorem Checker.adds_lookup (n : String) (s : Span) :
    Adds decls c (do
      match ← lookup? n with
      | some ty => return ty
      | none => do
        report (.symbolNotFound n s)
        fresh) [] (missing decls c.known n s) := by
  intro a c'' h
  rw [missing]
  obtain ⟨r, c', hlookup, h⟩ := exists_of_check_bind_eq_ok h
  obtain ⟨hturns, hscope⟩ := lookup?_spec hlookup
  cases r with
  | some ty =>
    rw [if_pos (hscope.mp rfl)]
    cases h
    exact hturns
  | none =>
    rw [if_neg fun hn => Bool.false_ne_true (hscope.mpr hn)]
    obtain ⟨u, c₁, hreport, h⟩ := exists_of_check_bind_eq_ok h
    exact hturns.trans ((adds_report rfl u c₁ hreport).trans (adds_fresh a c'' h))

theorem Checker.adds_access (t : Ty) (f : String) :
    Adds decls c (do
      let env := (← read).env
      match (← get).subst.chase t with
      | .named n _ => instantiateOrFresh (env.field? n f)
      | _ => fresh) [] [] := by
  intro a c' h
  obtain ⟨decls', c₁, hread, h⟩ := exists_of_check_bind_eq_ok h
  cases hread
  obtain ⟨current, c₁, hget, h⟩ := exists_of_check_bind_eq_ok h
  cases hget
  cases hchase : c.subst.chase t with
  | named n ts =>
    rw [hchase] at h
    exact adds_instantiateOrFresh _ a c' h
  | var v =>
    rw [hchase] at h
    exact adds_fresh a c' h
  | fn d e =>
    rw [hchase] at h
    exact adds_fresh a c' h

/-- The one local of a scope is known in it, and behind it no more. -/
theorem Checker.adds_withLocal {x : CheckM α} (n : String) (t : Ty)
    (h : ∀ c₁ : Checker, c₁.known = n :: c.known → Adds decls c₁ x [] ds) :
    Adds decls c (withScope do
      bindLocal n t
      x) [] ds := by
  have hinner : Adds decls { c with scopes := [] :: c.scopes } (do
      bindLocal n t
      x) [n] ds := (adds_bindLocal n t).bind fun _ c₁ _ h₁ => h c₁ h₁
  exact adds_withScope hinner

/-- The body of a clause knows the captures of its patterns. -/
theorem Matcher.adds_clause {patterns : List Pattern} {body : Expr} (result : Ty)
    (hbody : ∀ c₁ : Checker, c₁.known = (Pattern.capturesAll patterns).reverse ++ c.known →
      Adds decls c₁ body.infer [] ds) :
    Adds decls c (withScope do
      let patterns ← Pattern.checkAll patterns
      let bodyTy ← body.infer
      let _ ← unifyAt result bodyTy body.span
      return patterns) [] (Pattern.reportsAll decls c.known patterns ++ ds) := by
  have hinner : Adds decls { c with scopes := [] :: c.scopes } (do
      let patterns ← Pattern.checkAll patterns
      let bodyTy ← body.infer
      let _ ← unifyAt result bodyTy body.span
      return patterns) (Pattern.capturesAll patterns ++ [])
      (Pattern.reportsAll decls c.known patterns ++ ds) := by
    refine (Pattern.checkAll_adds patterns _).bind fun checked c₁ _ h₁ => ?_
    exact (hbody c₁ h₁).bind_last fun bodyTy _ => (adds_unifyAt result bodyTy body.span).map _
  exact adds_withScope hinner

/-- The scrutinees of a match are checked first, whether their number is reported or not, then its clauses. -/
theorem Expr.adds_matching {span nameSpan : Span} {name : String} {scrutinees : List Expr}
    {params : List Argument} {result : Ty} {clauses : List Clause}
    (hscrutinees : ∀ c₁ : Checker, c₁.known = c.known →
      Adds decls c₁ (Expr.inferScrutinees scrutinees params) [] (Expr.reportsAll decls c.known scrutinees))
    (hclauses : ∀ c₁ : Checker, c₁.known = c.known →
      Adds decls c₁ (Matcher.checkClauses result clauses) [] (Matcher.clauseReports decls c.known clauses)) :
    Adds decls c (Expr.matching span scrutinees ⟨name, nameSpan, params, result, clauses⟩).infer []
      ((Expr.matching span scrutinees ⟨name, nameSpan, params, result, clauses⟩).reports decls c.known) := by
  rw [Expr.infer, Expr.reports, List.append_assoc]
  by_cases hlen : params.length = scrutinees.length
  · rw [if_pos hlen, if_neg (not_not_intro hlen)]
    exact (hscrutinees c rfl).bind fun _ c₁ _ h₁ => (hclauses c₁ h₁).map fun _ => result
  · rw [if_neg hlen, if_pos hlen]
    refine (adds_report rfl).bind fun _ c₁ _ h₁ => (hscrutinees c₁ h₁).bind fun _ c₂ _ h₂ => ?_
    exact (hclauses c₂ (h₂.trans h₁)).map fun _ => result

mutual

theorem Expr.infer_adds : ∀ (e : Expr) (c : Checker),
    Adds decls c e.infer [] (e.reports decls c.known)
  | .literal _ l, c => adds_pure _
  | .name s n, c => by
    rw [Expr.infer, Expr.reports]
    exact adds_lookup n s
  | .call _ callee args, c => by
    rw [Expr.infer, Expr.reports]
    refine (Expr.infer_adds callee c).bind fun calleeTy c₁ _ h₁ => ?_
    have h := Expr.inferCall_adds calleeTy args c₁
    rw [h₁] at h
    exact h
  | .cond _ cond t e, c => by
    rw [Expr.infer, Expr.reports, List.append_assoc]
    refine (Expr.infer_adds cond c).bind fun conditionTy c₁ _ h₁ => ?_
    refine (adds_unifyAt _ _ _).bind_quiet fun _ c₂ _ h₂ => ?_
    have hknown : c₂.known = c.known := h₂.trans h₁
    rw [← hknown]
    refine (Expr.infer_adds t c₂).bind fun consequenceTy c₃ _ h₃ => ?_
    have h := (Expr.infer_adds e c₃).bind_last fun alternativeTy _ =>
      adds_unifyAt consequenceTy alternativeTy e.span
    rw [h₃] at h
    exact h
  | .letIn _ n _ value body, c => by
    rw [Expr.infer, Expr.reports]
    refine (Expr.infer_adds value c).bind fun valueTy c₁ _ h₁ => ?_
    refine adds_withLocal n valueTy fun c₂ h₂ => ?_
    have hknown : c₁.known = c.known := h₁
    rw [← hknown, ← h₂]
    exact Expr.infer_adds body c₂
  | .access _ value f _, c => by
    rw [Expr.infer, Expr.reports]
    exact (Expr.infer_adds value c).bind_last fun valueTy _ => adds_access valueTy f
  | .matching _ scrutinees ⟨_, _, params, result, clauses⟩, c => by
    refine Expr.adds_matching (fun c₁ h₁ => ?_) fun c₁ h₁ => ?_
    · rw [← h₁]
      exact Expr.inferScrutinees_adds scrutinees params c₁
    · rw [← h₁]
      exact Matcher.checkClauses_adds result clauses c₁

theorem Expr.inferCall_adds : ∀ (calleeTy : Ty) (args : List Expr) (c : Checker),
    Adds decls c (Expr.inferCall calleeTy args) [] (Expr.reportsAll decls c.known args)
  | calleeTy, [], c => by
    rw [Expr.inferCall, Expr.reportsAll]
    exact adds_pure _
  | calleeTy, e :: es, c => by
    rw [Expr.inferCall, Expr.reportsAll]
    refine (Expr.infer_adds e c).bind fun argTy c₁ _ h₁ => ?_
    refine adds_fresh.bind_quiet fun resultTy c₂ _ h₂ => ?_
    refine (adds_unifyAt _ _ _).bind_quiet fun _ c₃ _ h₃ => ?_
    have h := Expr.inferCall_adds resultTy es c₃
    rw [h₃, h₂, h₁] at h
    exact h

theorem Expr.inferScrutinees_adds : ∀ (es : List Expr) (params : List Argument) (c : Checker),
    Adds decls c (Expr.inferScrutinees es params) [] (Expr.reportsAll decls c.known es)
  | [], params, c => by
    rw [Expr.inferScrutinees, Expr.reportsAll]
    exact adds_pure _
  | e :: es, [], c => by
    rw [Expr.inferScrutinees, Expr.reportsAll]
    refine (Expr.infer_adds e c).bind fun ty c₁ _ h₁ => ?_
    have h := Expr.inferScrutinees_adds es [] c₁
    rw [h₁] at h
    exact h
  | e :: es, param :: params, c => by
    rw [Expr.inferScrutinees, Expr.reportsAll]
    refine (Expr.infer_adds e c).bind fun ty c₁ _ h₁ => ?_
    refine (adds_unifyAt _ _ _).bind_quiet fun _ c₂ _ h₂ => ?_
    have h := Expr.inferScrutinees_adds es params c₂
    rw [h₂, h₁] at h
    exact h

theorem Matcher.checkClauses_adds : ∀ (result : Ty) (cs : List Clause) (c : Checker),
    Adds decls c (Matcher.checkClauses result cs) [] (Matcher.clauseReports decls c.known cs)
  | result, [], c => by
    rw [Matcher.checkClauses, Matcher.clauseReports]
    exact adds_pure _
  | result, ⟨s, patterns, body⟩ :: cs, c => by
    rw [Matcher.checkClauses, Matcher.clauseReports]
    refine (Matcher.adds_clause result fun c₁ h₁ => ?_).bind fun checked c₁ _ h₁ => ?_
    · rw [← h₁]
      exact Expr.infer_adds body c₁
    · have h := (Matcher.checkClauses_adds result cs c₁).map fun cs' => ⟨s, checked, body⟩ :: cs'
      rw [h₁] at h
      exact h

end

/-- The clauses of a matcher know its name. -/
theorem Matcher.adds_clauses (m : Matcher) (c : Checker) :
    Adds decls c (do
      let clauses ← withScope do
        bindLocal m.name m.fnTy
        Matcher.checkClauses m.result m.clauses
      return ((← get).subst.resolve m.fnTy, { m with clauses := clauses })) []
      (Matcher.clauseReports decls (m.name :: c.known) m.clauses) := by
  refine (adds_withLocal m.name m.fnTy fun c₁ h₁ => ?_).bind_last fun clauses c₁ a c₂ h => ?_
  · rw [← h₁]
    exact Matcher.checkClauses_adds m.result m.clauses c₁
  · obtain ⟨current, c₃, hget, h⟩ := exists_of_check_bind_eq_ok h
    cases hget
    exact adds_pure _ a c₂ h

/-- Checking a matcher leaves the scopes as they were, and tells of the names in its clauses that are
not in scope, its own name being so. -/
theorem Matcher.check_adds (m : Matcher) (c : Checker) :
    Adds decls c m.check [] (Matcher.clauseReports decls (m.name :: c.known) m.clauses) := by
  intro a c' h
  obtain ⟨decls', c₁, hread, h⟩ := exists_of_check_bind_eq_ok h
  cases hread
  cases hglobal : decls.env.global? m.name with
  | none =>
    rw [hglobal] at h
    exact Matcher.adds_clauses m c a c' h
  | some signature =>
    rw [hglobal] at h
    obtain ⟨t, c₁, hrun, h⟩ := exists_of_check_bind_eq_ok h
    have h₁ := adds_instantiate signature t c₁ hrun
    obtain ⟨u, c₂, hrun, h⟩ := exists_of_check_bind_eq_ok h
    have h₂ := adds_unifyAt _ _ _ u c₂ hrun
    have hknown : c₂.known = c.known := (h₁.trans h₂).known_eq
    rw [← hknown]
    exact (h₁.trans h₂).trans (Matcher.adds_clauses m c₂ a c' h)

end Clausal
