import Clausal.Proofs.Matcher.Bound
import Clausal.Typing.Matcher
import Clausal.Proofs.Control

/-!
# Checking bound syntax never breaks a contract

Whatever the substitution, the declarations and the types, the checker comes to an end with a result on
every matcher that was bound: each node of a pattern has a place, there is no group, and a scope is open
where a capture is recorded. Expressions open the scopes they need themselves; a pattern needs one that is
open, and leaves one open.
-/
namespace Clausal

open Checker

namespace Checker

/-- The step comes to an end with a result, and the scopes are as stated behind it. -/
def Completes {α : Type} (decls : Declarations) (c : Checker) (x : CheckM α)
    (R : List Scope → Prop) : Prop :=
  Ends (x decls) c (fun _ c' => R c'.scopes) fun _ => False

variable {decls : Declarations} {c : Checker} {α β : Type} {R R' : List Scope → Prop} {t u : Ty}

theorem completes_pure (h : R c.scopes) (a : α) : Completes decls c (pure a) R :=
  h

theorem Completes.bind {x : CheckM α} {f : α → CheckM β} (hx : Completes decls c x R)
    (hf : ∀ a c', R c'.scopes → Completes decls c' (f a) R') : Completes decls c (x >>= f) R' :=
  Ends.bind (x := x decls) (f := fun a => f a decls) hx hf

theorem Completes.map {x : CheckM α} (hx : Completes decls c x R) (g : α → β) :
    Completes decls c (do return g (← x)) R :=
  hx.bind fun a _ h => completes_pure h (g a)

theorem Completes.bind_read {f : Declarations → CheckM β} (hf : Completes decls c (f decls) R) :
    Completes decls c (read >>= f) R :=
  hf

theorem Completes.bind_get {f : Checker → CheckM β} (hf : Completes decls c (f c) R) :
    Completes decls c (get >>= f) R :=
  hf

theorem completes_onSubst (h : R c.scopes) (f : Substitution → α × Substitution) :
    Completes decls c (onSubst f) R :=
  h

theorem completes_report (h : R c.scopes) (d : Diagnostic) : Completes decls c (report d) R :=
  h

theorem completes_fresh (h : R c.scopes) : Completes decls c fresh R :=
  completes_onSubst h _

theorem completes_instantiate (h : R c.scopes) (t : Ty) : Completes decls c (instantiate t) R :=
  completes_onSubst h _

theorem completes_instantiateOrFresh (h : R c.scopes) (t : Option Ty) :
    Completes decls c (instantiateOrFresh t) R := by
  cases t with
  | none => exact completes_fresh h
  | some t => exact completes_instantiate h t

theorem completes_unifyAt (h : R c.scopes) (t u : Ty) (s : Span) :
    Completes decls c (unifyAt t u s) R := by
  refine (completes_onSubst h _).bind fun r c₁ h₁ => ?_
  cases r with
  | unified x => exact completes_pure h₁ x
  | mismatch e a => exact .bind_get ((completes_report h₁ _).map fun _ => t)
  | circular x v => exact .bind_get ((completes_report h₁ _).map fun _ => t)

theorem completes_bindLocal (h : c.scopes ≠ []) (n : String) (t : Ty) :
    Completes decls c (bindLocal n t) (· ≠ []) := by
  refine .bind_get ?_
  cases hscopes : c.scopes with
  | nil => exact absurd hscopes h
  | cons scope outer => exact List.cons_ne_nil _ outer

theorem completes_withScope {x : CheckM α}
    (hx : ∀ c' : Checker, c'.scopes ≠ [] → Completes decls c' x fun _ => True) :
    Completes decls c (withScope x) fun _ => True :=
  .bind (x := modify _) (R := (· ≠ [])) (List.cons_ne_nil [] c.scopes) fun _ c₁ h₁ =>
    (hx c₁ h₁).bind fun _ _ _ => trivial

theorem completes_lookup (h : R c.scopes) (n : String) (s : Span) {x : CheckM Ty}
    (hx : ∀ c' : Checker, R c'.scopes → Completes decls c' x R) : Completes decls c (do
      match ← lookup? n with
      | some ty => return ty
      | none => do
        report (.symbolNotFound n s)
        x) R := by
  have hlookup : Completes decls c (lookup? n) R := by
    refine .bind_get ?_
    cases c.scopes.findSome? (·.lookup n) with
    | some t => exact completes_pure h _
    | none =>
      refine .bind_read ?_
      cases decls.env.global? n with
      | some t => exact (completes_instantiate h t).map some
      | none => exact completes_pure h _
  refine hlookup.bind fun r c₁ h₁ => ?_
  cases r with
  | some t => exact completes_pure h₁ t
  | none => exact (completes_report h₁ _).bind fun _ c₂ h₂ => hx c₂ h₂

end Checker

variable {decls : Declarations} {c : Checker}

/-! ## Patterns -/

namespace Pattern

theorem completes_placeTy {place : Option Place} (hplace : place.isSome) (h : c.scopes ≠ []) :
    Completes decls c (do typeOfPlace (← Place.ofBound place)) (· ≠ []) := by
  cases place with
  | none => cases hplace
  | some place =>
    refine (completes_pure (R := (· ≠ [])) h place).bind fun place c₁ h₁ => ?_
    cases place with
    | argument arg tag => exact completes_pure h₁ _
    | field parent n tag => exact .bind_read (completes_instantiateOrFresh h₁ _)

theorem completes_declaredFields (h : c.scopes ≠ []) (constr : String) (s : Span) :
    Completes decls c (declaredFields constr s) (· ≠ []) := by
  refine .bind_read (.bind_read ?_)
  dsimp only
  split
  · exact (completes_report h _).bind fun _ _ h₁ => completes_pure h₁ _
  · exact completes_pure h _

theorem completes_checkField (h : c.scopes ≠ []) (declared : Option Fields) (n : String) (s : Span) :
    Completes decls c (checkField declared n s) (· ≠ []) := by
  cases declared with
  | none => exact completes_pure h _
  | some fields =>
    rw [checkField]
    split
    · exact completes_report h _
    · exact completes_pure h _

theorem completes_expectedTy (h : c.scopes ≠ []) (t : Ty) (s : Span) (e : Expected) :
    Completes decls c (expectedTy t s e) (· ≠ []) := by
  cases e with
  | literal l => exact completes_pure h _
  | name n =>
    rw [expectedTy]
    exact completes_lookup h n s fun c₁ h₁ => completes_pure h₁ t

mutual

theorem check_completes : ∀ (p : Pattern) {c : Checker}, p.isBound = true → c.scopes ≠ [] →
    Completes decls c p.check (· ≠ [])
  | .ignore s, c, _, h => (completes_fresh h).map _
  | .group _ _, c, hb, _ => by cases hb
  | .capture s n annotation place, c, hb, h => by
    rw [isBound] at hb
    rw [check, ← bind_assoc]
    refine (completes_placeTy hb h).bind fun valueTy c₁ h₁ => ?_
    have hrest {declared : Ty} {c₂ : Checker} (h₂ : c₂.scopes ≠ []) : Completes decls c₂ (do
        let ty ← unifyAt valueTy declared s
        bindLocal n ty
        return (ty, capture s n (some ty) place)) (· ≠ []) :=
      (completes_unifyAt (R := (· ≠ [])) h₂ _ _ s).bind fun ty c₃ h₃ =>
        (completes_bindLocal h₃ n ty).map _
    cases annotation with
    | some ann => exact hrest h₁
    | none => exact (completes_fresh (R := (· ≠ [])) h₁).bind fun _ _ h₂ => hrest h₂
  | .equal s e place, c, hb, h => by
    rw [isBound] at hb
    rw [check, ← bind_assoc]
    refine (completes_placeTy hb h).bind fun valueTy c₁ h₁ => ?_
    refine (completes_expectedTy h₁ valueTy s e).bind fun expected c₂ h₂ => ?_
    exact (completes_unifyAt h₂ valueTy expected s).map _
  | .record s constr cs fields place, c, hb, h => by
    rw [isBound, Bool.and_eq_true] at hb
    rw [check, ← bind_assoc]
    refine (completes_placeTy hb.1 h).bind fun valueTy c₁ h₁ => ?_
    refine (completes_declaredFields h₁ constr cs).bind fun declared c₂ h₂ => ?_
    refine (checkFields_completes declared fields hb.2 h₂).bind fun r c₃ h₃ => ?_
    exact Completes.map (.bind_read (completes_unifyAt h₃ valueTy _ s)) _
  | .tuple s constr cs fields place, c, hb, h => by
    rw [isBound, Bool.and_eq_true] at hb
    rw [check, ← bind_assoc]
    refine (completes_placeTy hb.1 h).bind fun valueTy c₁ h₁ => ?_
    refine (completes_declaredFields h₁ constr cs).bind fun declared c₂ h₂ => ?_
    refine (checkPositions_completes declared fields hb.2 h₂).bind fun r c₃ h₃ => ?_
    exact Completes.map (.bind_read (completes_unifyAt h₃ valueTy _ s)) _

theorem checkFields_completes : ∀ (declared : Option Fields) (fs : List FieldPattern) {c : Checker},
    fieldsBound fs = true → c.scopes ≠ [] → Completes decls c (checkFields declared fs) (· ≠ [])
  | _, [], c, _, h => completes_pure h _
  | declared, ⟨n, ns, p⟩ :: fs, c, hb, h => by
    rw [fieldsBound, Bool.and_eq_true] at hb
    rw [checkFields]
    refine (completes_checkField h declared n ns).bind fun _ c₁ h₁ => ?_
    refine (check_completes p hb.1 h₁).bind fun r c₂ h₂ => ?_
    exact (checkFields_completes declared fs hb.2 h₂).map _

theorem checkPositions_completes : ∀ (declared : Option Fields) (ps : List Pattern) {c : Checker},
    allBound ps = true → c.scopes ≠ [] → Completes decls c (checkPositions declared ps) (· ≠ [])
  | _, [], c, _, h => completes_pure h _
  | declared, p :: ps, c, hb, h => by
    rw [allBound, Bool.and_eq_true] at hb
    rw [checkPositions]
    have hrest {c₁ : Checker} (h₁ : c₁.scopes ≠ []) : Completes decls c₁ (do
        let (ty, q) ← check p
        let (tys, qs) ← checkPositions declared ps
        return (ty :: tys, q :: qs)) (· ≠ []) :=
      (check_completes p hb.1 h₁).bind fun r c₂ h₂ => (checkPositions_completes declared ps hb.2 h₂).map _
    cases p.place?.bind Place.fieldName? with
    | none => exact hrest h
    | some n => exact (completes_checkField h declared n p.span).bind fun _ _ h₁ => hrest h₁

end

theorem checkAll_completes : ∀ (ps : List Pattern) {c : Checker}, allBound ps = true →
    c.scopes ≠ [] → Completes decls c (checkAll ps) (· ≠ [])
  | [], c, _, h => completes_pure h _
  | p :: ps, c, hb, h => by
    rw [allBound, Bool.and_eq_true] at hb
    rw [checkAll]
    exact (check_completes p hb.1 h).bind fun r c₁ h₁ => (checkAll_completes ps hb.2 h₁).map _

end Pattern

/-! ## Expressions and matchers -/

mutual

theorem Expr.infer_completes : ∀ (e : Expr) {c : Checker}, e.Placed →
    Completes decls c e.infer fun _ => True
  | .literal _ l, c, _ => trivial
  | .name s n, c, _ => by
    rw [Expr.infer]
    exact completes_lookup trivial n s fun c₁ _ => completes_fresh trivial
  | .call _ callee args, c, ⟨hcallee, hargs⟩ => by
    rw [Expr.infer]
    exact (Expr.infer_completes callee hcallee).bind fun _ _ _ => Expr.inferCall_completes args hargs
  | .cond _ cond t e, c, ⟨hcond, ht, he⟩ => by
    rw [Expr.infer]
    refine (Expr.infer_completes cond hcond).bind fun _ c₁ _ => ?_
    refine (completes_unifyAt (R := fun _ => True) trivial _ _ _).bind fun _ c₂ _ => ?_
    refine (Expr.infer_completes t ht).bind fun _ c₃ _ => ?_
    exact (Expr.infer_completes e he).bind fun _ c₄ _ => completes_unifyAt trivial _ _ _
  | .letIn _ n _ value body, c, ⟨hvalue, hbody⟩ => by
    rw [Expr.infer]
    refine (Expr.infer_completes value hvalue).bind fun valueTy c₁ _ => ?_
    refine completes_withScope fun c₂ h₂ => (completes_bindLocal h₂ n valueTy).bind fun _ c₃ _ => ?_
    exact Expr.infer_completes body hbody
  | .access _ value f _, c, h => by
    rw [Expr.Placed] at h
    rw [Expr.infer]
    refine (Expr.infer_completes value h).bind fun valueTy c₁ _ => .bind_read (.bind_get ?_)
    cases c₁.subst.chase valueTy with
    | named n ts => exact completes_instantiateOrFresh trivial _
    | var v => exact completes_fresh trivial
    | fn d e => exact completes_fresh trivial
  | .matching s scrutinees ⟨_, _, params, result, clauses⟩, c, ⟨hscrutinees, hclauses⟩ => by
    rw [Expr.infer]
    have hrest (c₁ : Checker) : Completes decls c₁ (do
        Expr.inferScrutinees scrutinees params
        let _ ← Matcher.checkClauses result clauses
        return result) fun _ => True :=
      (Expr.inferScrutinees_completes scrutinees hscrutinees).bind fun _ c₂ _ =>
        (Matcher.checkClauses_completes clauses hclauses).map _
    by_cases hlen : params.length = scrutinees.length
    · rw [if_neg (not_not_intro hlen)]
      exact hrest c
    · rw [if_pos hlen]
      exact (completes_report (R := fun _ => True) trivial _).bind fun _ c₁ _ => hrest c₁

theorem Expr.inferCall_completes : ∀ (args : List Expr) {calleeTy : Ty} {c : Checker},
    Expr.PlacedAll args → Completes decls c (Expr.inferCall calleeTy args) fun _ => True
  | [], calleeTy, c, _ => trivial
  | arg :: args, calleeTy, c, ⟨harg, hargs⟩ => by
    rw [Expr.inferCall]
    refine (Expr.infer_completes arg harg).bind fun argTy c₁ _ => ?_
    refine (completes_fresh (R := fun _ => True) trivial).bind fun resultTy c₂ _ => ?_
    refine (completes_unifyAt (R := fun _ => True) trivial _ _ _).bind fun _ c₃ _ => ?_
    exact Expr.inferCall_completes args hargs

theorem Expr.inferScrutinees_completes : ∀ (es : List Expr) {params : List Argument} {c : Checker},
    Expr.PlacedAll es → Completes decls c (Expr.inferScrutinees es params) fun _ => True
  | [], params, c, _ => by
    rw [Expr.inferScrutinees]
    exact completes_pure trivial ()
  | e :: es, [], c, ⟨he, hes⟩ => by
    rw [Expr.inferScrutinees]
    exact (Expr.infer_completes e he).bind fun _ c₁ _ => Expr.inferScrutinees_completes es hes
  | e :: es, param :: params, c, ⟨he, hes⟩ => by
    rw [Expr.inferScrutinees]
    refine (Expr.infer_completes e he).bind fun ty c₁ _ => ?_
    refine (completes_unifyAt (R := fun _ => True) trivial _ _ _).bind fun _ c₂ _ => ?_
    exact Expr.inferScrutinees_completes es hes

theorem Matcher.checkClauses_completes : ∀ (cs : List Clause) {result : Ty} {c : Checker},
    Matcher.ClausesPlaced cs →
    Completes decls c (Matcher.checkClauses result cs) fun _ => True
  | [], result, c, _ => trivial
  | ⟨s, patterns, body⟩ :: cs, result, c, ⟨hpatterns, hbody, hcs⟩ => by
    rw [Matcher.checkClauses]
    have hclause : Completes decls c (withScope do
        let patterns ← Pattern.checkAll patterns
        let bodyTy ← body.infer
        let _ ← unifyAt result bodyTy body.span
        return patterns) fun _ => True := by
      refine completes_withScope fun c₁ h₁ => ?_
      refine (Pattern.checkAll_completes patterns hpatterns h₁).bind fun _ c₂ _ => ?_
      refine (Expr.infer_completes body hbody).bind fun bodyTy c₃ _ => ?_
      exact (completes_unifyAt (R := fun _ => True) trivial _ _ _).map _
    exact hclause.bind fun _ c₁ _ => (Matcher.checkClauses_completes cs hcs).map _

end

/-- Checking a matcher gives a result if every pattern has its places. -/
theorem Matcher.check_completes_placed {m : Matcher} (hm : m.Placed) (c : Checker) :
    Completes decls c m.check fun _ => True := by
  have hclauses (c₁ : Checker) : Completes decls c₁ (do
      let clauses ← withScope do
        bindLocal m.name m.fnTy
        Matcher.checkClauses m.result m.clauses
      return ((← get).subst.resolve m.fnTy, { m with clauses := clauses })) fun _ => True := by
    refine Completes.bind (R := fun _ => True) (completes_withScope fun c₂ h₂ => ?_) fun _ c₃ _ => ?_
    · refine (completes_bindLocal h₂ _ _).bind fun _ c₃ _ => ?_
      obtain ⟨_, _, params, result, clauses⟩ := m
      exact Matcher.checkClauses_completes clauses hm
    · exact .bind_get (completes_pure trivial _)
  rw [Matcher.check]
  refine .bind_read ?_
  cases decls.env.global? m.name with
  | none => exact hclauses c
  | some signature =>
    refine (completes_instantiate (R := fun _ => True) trivial _).bind fun copy c₁ _ => ?_
    exact (completes_unifyAt (R := fun _ => True) trivial _ _ _).bind fun _ c₂ _ => hclauses c₂

/-- Checking a bound matcher gives a result. -/
theorem Matcher.check_completes {config : Config} {m : Matcher} (hm : m.Bound config) (c : Checker) :
    Completes decls c m.check fun _ => True :=
  Matcher.check_completes_placed hm.placed c

end Clausal
