import Clausal.Proofs.Substitution.Strict
import Clausal.Proofs.Typing.Soundness
import Clausal.Typing.Strict

/-!
# The checker stays within the table

A regular checker hands the substitution only types that it knows, and every step leaves the checker regular
again. So the checker that checks the bounds of the table never stops at a variable: on types over the
substitution it does step by step what the other one does.
-/
namespace Clausal

open Checker Substitution

namespace Checker

variable {decls : Declarations} {c c' : Checker} {α β : Type} {t u : Ty}

/-- From this state the two steps come to the same end. -/
def Agrees (decls : Declarations) (c : Checker) (x y : CheckM α) : Prop :=
  x decls c = y decls c

theorem Agrees.refl (x : CheckM α) : Agrees decls c x x :=
  rfl

/-- Steps that agree can be followed by steps that agree wherever the first ones end. -/
theorem Agrees.bind {x y : CheckM α} {f g : α → CheckM β} {P : α → Substitution → Prop}
    {J : α → Checker → Prop} (hx : Agrees decls c x y) (hy : Keeps decls ∅ c y P J)
    (hf : ∀ a c', Leads ∅ c c' → Regular decls c' → P a c'.subst → Agrees decls c' (f a) (g a)) :
    Agrees decls c (x >>= f) (y >>= g) := by
  change EStateM.bind (x decls) (fun a => f a decls) c = EStateM.bind (y decls) (fun a => g a decls) c
  rw [EStateM.bind, EStateM.bind, hx]
  cases hrun : y decls c with
  | error v c' => rfl
  | ok a c' =>
    obtain ⟨hleads, hc', ha, -⟩ := Ends.of_ok hy hrun
    exact hf a c' hleads hc' ha

/-- What is the same for both needs nothing to be known of where it starts. -/
theorem Agrees.bind_same {x y : CheckM α} {f : α → CheckM β} (hx : Agrees decls c x y) :
    Agrees decls c (x >>= f) (y >>= f) :=
  run_bind_congr (x := x decls) (y := y decls) (f := fun a => f a decls) hx

theorem Agrees.bind_read {f g : Declarations → CheckM β} (h : Agrees decls c (f decls) (g decls)) :
    Agrees decls c (read >>= f) (read >>= g) :=
  h

theorem Agrees.bind_get {f g : Checker → CheckM β} (h : Agrees decls c (f c) (g c)) :
    Agrees decls c (get >>= f) (get >>= g) :=
  h

theorem agrees_withScope {x y : CheckM α} (h : Agrees decls c.opened x y) :
    Agrees decls c (withScope x) (withScope y) :=
  Agrees.bind_same (c := c.opened) (f := _) h

/-! ## Steps on the substitution -/

theorem onSubstStrict_run {step : SubstM α} {a : α} {s : Substitution} (h : step c.subst = .ok a s) :
    onSubstStrict step decls c = .ok a { c with subst := s } := by
  rw [onSubstStrict, h]

theorem resolveStrict_run (hs : c.subst.Valid) (ht : t.Over c.subst) :
    Checker.resolveStrict t decls c = .ok (c.subst.resolve t) c :=
  onSubstStrict_run (hs.resolveStrict_run ht)

theorem chaseStrict_run (hs : c.subst.Valid) (ht : t.Over c.subst) :
    onSubstStrict (chaseStrict t) decls c = .ok (c.subst.chase t) c :=
  onSubstStrict_run (hs.chaseStrict_run ht)

theorem agrees_instantiate (hc : Regular decls c) (ht : t.Over c.subst) :
    Agrees decls c (Checker.instantiateStrict t) (Checker.instantiate t) :=
  onSubstStrict_run (hc.valid.instantiateStrict_run ht)

theorem agrees_instantiateOrFresh (hc : Regular decls c) {ty? : Option Ty}
    (h : ∀ t, ty? = some t → t.Over c.subst) :
    Agrees decls c (instantiateOrFreshStrict ty?) (instantiateOrFresh ty?) := by
  cases ty? with
  | none => exact .refl fresh
  | some t => exact agrees_instantiate hc (h t rfl)

theorem agrees_unifyAt (hc : Regular decls c) (ht : t.Within ∅ c.subst) (hu : u.Within ∅ c.subst)
    (s : Span) : Agrees decls c (unifyAtStrict t u s) (unifyAt t u s) := by
  have hrun := hc.valid.unify_run hu.known ht.known
  have hvalid := (hrun.advances hc.valid hu.known ht.known).valid
  have hstrict : onSubstStrict (unifyStrict u t) decls c =
      .ok (c.subst.unify u t).1 { c with subst := (c.subst.unify u t).2 } :=
    onSubstStrict_run (hc.valid.unifyStrict_run hu.known ht.known)
  have hplain : onSubst (·.unify u t) decls c =
      .ok (c.subst.unify u t).1 { c with subst := (c.subst.unify u t).2 } := rfl
  rw [Agrees, unifyAtStrict, unifyAt, run_check_bind_of_eq_ok hstrict, run_check_bind_of_eq_ok hplain]
  generalize (c.subst.unify u t).1 = r at hrun
  generalize (c.subst.unify u t).2 = s' at hrun hvalid
  cases r with
  | unified x => rfl
  | mismatch e a =>
    obtain ⟨he, ha⟩ := hrun.over_mismatch hc.valid hu.known ht.known
    dsimp only
    rw [run_check_bind_of_eq_ok (resolveStrict_run hvalid he),
      run_check_bind_of_eq_ok (resolveStrict_run hvalid ha)]
    rfl
  | circular x v =>
    have hx := hrun.over_circular hc.valid hu.known ht.known
    dsimp only
    rw [run_check_bind_of_eq_ok (resolveStrict_run hvalid hx)]
    rfl

theorem agrees_lookup? (hc : Regular decls c) (n : String) :
    Agrees decls c (lookupStrict? n) (lookup? n) := by
  refine .bind_get ?_
  cases hlocal : c.scopes.findSome? (·.lookup n) with
  | some t => exact .refl _
  | none =>
    refine .bind_read ?_
    cases hglobal : decls.env.global? n with
    | some t =>
      exact (agrees_instantiate hc (hc.declared t (.global hglobal))).bind_same
    | none => exact .refl _

theorem agrees_typeOfPlace (hc : Regular decls c) (place : Place) :
    Agrees decls c (typeOfPlaceStrict place) (typeOfPlace place) := by
  cases place with
  | argument arg tag => exact .refl _
  | field parent n tag =>
    refine .bind_read (agrees_instantiateOrFresh hc fun t ht => ?_)
    obtain ⟨constr, -, hfield⟩ := Option.bind_eq_some_iff.mp ht
    exact hc.declared t (.of_field? hfield)

end Checker

variable {decls : Declarations} {c : Checker} {t : Ty}

/-! ## Patterns -/

namespace Pattern

theorem agrees_placeTy (hc : Regular decls c) {place : Option Place}
    (h : WithinAll ∅ (placeTypes place) c.subst) {α : Type} {f g : Ty → CheckM α}
    (hf : ∀ t c', Leads ∅ c c' → Regular decls c' → t.Within ∅ c'.subst → Agrees decls c' (f t) (g t)) :
    Agrees decls c (do f (← typeOfPlaceStrict (← Place.ofBound place)))
      (do g (← typeOfPlace (← Place.ofBound place))) := by
  cases place with
  | none => rfl
  | some place =>
    have hplace := h _ (List.mem_singleton.mpr rfl)
    exact (agrees_typeOfPlace hc place).bind (keeps_typeOfPlace hc hplace) hf

theorem agrees_unifyTuple (hc : Regular decls c) {ts : List Ty} (ht : t.Within ∅ c.subst)
    (hts : WithinAll ∅ ts c.subst) (s : Span) :
    Agrees decls c (unifyTupleStrict t ts s) (unifyTuple t ts s) :=
  .bind_read (agrees_unifyAt hc ht (within_named.mpr hts) s)

theorem agrees_expectedTy (hc : Regular decls c) (s : Span) (e : Expected) :
    Agrees decls c (expectedTyStrict t s e) (expectedTy t s e) := by
  cases e with
  | literal l => exact .refl _
  | name n => exact (agrees_lookup? hc n).bind_same

/-- The parts of a destructured value are checked between the constructor and the tuple type. -/
theorem agrees_destructured (hc : Regular decls c) {place : Option Place} {constr : String} {cs s : Span}
    {parts : Option Fields → List Part} {α : Type} {rowStrict row : Option Fields → CheckM (List Ty × α)}
    (mk : α → Pattern) (hplace : WithinAll ∅ (placeTypes place) c.subst)
    (hagrees : ∀ declared c₁, Leads ∅ c c₁ → Regular decls c₁ →
      Agrees decls c₁ (rowStrict declared) (row declared))
    (hrow : ∀ declared c₁, Leads ∅ c c₁ → Regular decls c₁ →
      ChecksRow decls ∅ c₁ declared (parts declared) (row declared)) :
    Agrees decls c (do
      let valueTy ← typeOfPlaceStrict (← Place.ofBound place)
      let declared ← declaredFields constr cs
      let (tys, fields) ← rowStrict declared
      return (← unifyTupleStrict valueTy tys s, mk fields)) (do
      let valueTy ← typeOfPlace (← Place.ofBound place)
      let declared ← declaredFields constr cs
      let (tys, fields) ← row declared
      return (← unifyTuple valueTy tys s, mk fields)) := by
  refine agrees_placeTy hc hplace fun valueTy c₁ h₁ hc₁ hvalue => ?_
  refine (Agrees.refl _).bind (keeps_declaredFields hc₁ constr cs) fun declared c₂ h₂ hc₂ _ => ?_
  have h₁₂ := h₁.trans h₂
  refine (hagrees declared c₂ h₁₂ hc₂).bind (hrow declared c₂ h₁₂ hc₂) fun r c₃ h₃ hc₃ hr => ?_
  exact (agrees_unifyTuple hc₃ ((h₂.trans h₃).within hvalue) hr s).bind_same

/-- The first part of a destructured value is checked before the others. -/
theorem agrees_row {p : Pattern} {α β γ : Type}
    {firstStrict first : CheckM (Ty × α)} {othersStrict others : CheckM (List Ty × β)} (mk : α → β → γ)
    (hagrees : Agrees decls c firstStrict first) (hfirst : Checks decls ∅ c p first)
    (hothers : ∀ c₁, Leads ∅ c c₁ → Regular decls c₁ → Agrees decls c₁ othersStrict others) :
    Agrees decls c (do
      let (ty, a) ← firstStrict
      let (tys, b) ← othersStrict
      return (ty :: tys, mk a b)) (do
      let (ty, a) ← first
      let (tys, b) ← others
      return (ty :: tys, mk a b)) :=
  hagrees.bind hfirst fun _ c₁ h₁ hc₁ _ => (hothers c₁ h₁ hc₁).bind_same

mutual

theorem check_agrees : ∀ (p : Pattern) {c : Checker}, Regular decls c → WithinAll ∅ p.types c.subst →
    Agrees decls c p.checkStrict p.check
  | .ignore s, c, hc, _ => .refl _
  | .group _ _, c, _, _ => .refl _
  | .capture s n annotation place, c, hc, hts => by
    obtain ⟨hann, hplace⟩ := withinAll_append.mp hts
    rw [checkStrict, check]
    refine agrees_placeTy hc hplace fun valueTy c₁ h₁ hc₁ hvalue => ?_
    cases annotation with
    | none =>
      refine (Agrees.refl _).bind (keeps_fresh hc₁) fun declared c₂ h₂ hc₂ hdeclared => ?_
      exact (agrees_unifyAt hc₂ (h₂.within hvalue) hdeclared s).bind_same
    | some declared =>
      have hdeclared := h₁.within (hann declared (List.mem_singleton.mpr rfl))
      exact (agrees_unifyAt hc₁ hvalue hdeclared s).bind_same
  | .equal s e place, c, hc, hts => by
    rw [checkStrict, check]
    refine agrees_placeTy hc hts fun valueTy c₁ h₁ hc₁ hvalue => ?_
    refine (agrees_expectedTy hc₁ s e).bind (keeps_expectedTy hc₁ hvalue s e) fun expected c₂ h₂ hc₂ he => ?_
    exact (agrees_unifyAt hc₂ (h₂.within hvalue) he s).bind_same
  | .record s constr cs fields place, c, hc, hts => by
    obtain ⟨hplace, hfields⟩ := withinAll_append.mp hts
    rw [checkStrict, check]
    exact agrees_destructured hc (.record s constr cs · place) hplace
      (fun declared c₁ h₁ hc₁ => checkFields_agrees declared fields hc₁ (h₁.withinAll hfields))
      fun declared c₁ h₁ hc₁ => checkFields_keeps declared fields hc₁ (h₁.withinAll hfields)
  | .tuple s constr cs fields place, c, hc, hts => by
    obtain ⟨hplace, hfields⟩ := withinAll_append.mp hts
    rw [checkStrict, check]
    exact agrees_destructured hc (.tuple s constr cs · place) hplace
      (fun declared c₁ h₁ hc₁ => checkPositions_agrees declared fields hc₁ (h₁.withinAll hfields))
      fun declared c₁ h₁ hc₁ => checkPositions_keeps declared fields hc₁ (h₁.withinAll hfields)

theorem checkFields_agrees : ∀ (declared : Option Fields) (fs : List FieldPattern) {c : Checker},
    Regular decls c → WithinAll ∅ (fieldTypes fs) c.subst →
    Agrees decls c (checkFieldsStrict declared fs) (checkFields declared fs)
  | _, [], c, hc, _ => .refl _
  | declared, ⟨n, ns, p⟩ :: fs, c, hc, hts => by
    obtain ⟨hp, hfs⟩ := withinAll_append.mp hts
    rw [checkFieldsStrict, checkFields]
    refine (Agrees.refl _).bind (keeps_checkField hc declared n ns) fun _ c₁ h₁ hc₁ _ => ?_
    have hp₁ := h₁.withinAll hp
    exact agrees_row (fun q gs => ⟨n, ns, q⟩ :: gs) (check_agrees p hc₁ hp₁) (check_keeps p hc₁ hp₁)
      fun c₂ h₂ hc₂ => checkFields_agrees declared fs hc₂ ((h₁.trans h₂).withinAll hfs)

theorem checkPositions_agrees : ∀ (declared : Option Fields) (ps : List Pattern) {c : Checker},
    Regular decls c → WithinAll ∅ (typesAll ps) c.subst →
    Agrees decls c (checkPositionsStrict declared ps) (checkPositions declared ps)
  | _, [], c, hc, _ => .refl _
  | declared, p :: ps, c, hc, hts => by
    obtain ⟨hp, hps⟩ := withinAll_append.mp hts
    rw [checkPositionsStrict, checkPositions]
    cases p.place?.bind Place.fieldName? with
    | none =>
      exact agrees_row (· :: ·) (check_agrees p hc hp) (check_keeps p hc hp)
        fun c₁ h₁ hc₁ => checkPositions_agrees declared ps hc₁ (h₁.withinAll hps)
    | some n =>
      refine (Agrees.refl _).bind (keeps_checkField hc declared n p.span) fun _ c₁ h₁ hc₁ _ => ?_
      have hp₁ := h₁.withinAll hp
      exact agrees_row (· :: ·) (check_agrees p hc₁ hp₁) (check_keeps p hc₁ hp₁)
        fun c₂ h₂ hc₂ => checkPositions_agrees declared ps hc₂ ((h₁.trans h₂).withinAll hps)

end

theorem checkAll_agrees : ∀ (ps : List Pattern) {c : Checker}, Regular decls c →
    WithinAll ∅ (typesAll ps) c.subst → Agrees decls c (checkAllStrict ps) (checkAll ps)
  | [], c, hc, _ => .refl _
  | p :: ps, c, hc, hts => by
    obtain ⟨hp, hps⟩ := withinAll_append.mp hts
    rw [checkAllStrict, checkAll]
    refine (check_agrees p hc hp).bind (check_keeps p hc hp) fun r c₁ h₁ hc₁ _ => ?_
    exact (checkAll_agrees ps hc₁ (h₁.withinAll hps)).bind_same

end Pattern

/-! ## Expressions and matchers -/

theorem agrees_access (hc : Regular decls c) (ht : t.Over c.subst) (f : String) :
    Agrees decls c (do
      let env := (← read).env
      match ← onSubstStrict (chaseStrict t) with
      | .named constr _ => instantiateOrFreshStrict (env.field? constr f)
      | _ => fresh) (do
      let env := (← read).env
      match (← get).subst.chase t with
      | .named constr _ => instantiateOrFresh (env.field? constr f)
      | _ => fresh) := by
  refine .bind_read ?_
  have hget : (get : CheckM Checker) decls c = .ok c c := rfl
  rw [Agrees, run_check_bind_of_eq_ok (chaseStrict_run hc.valid ht), run_check_bind_of_eq_ok hget]
  cases c.subst.chase t with
  | named constr ts => exact agrees_instantiateOrFresh hc fun u hu => hc.declared u (.of_field? hu)
  | var v => rfl
  | fn d e => rfl

/-- Inferring a type and unifying it with one that is known. -/
theorem Expr.agrees_bind_unifyAt {e : Expr} (he : e.Infers decls ∅ c)
    (hagrees : Agrees decls c e.inferStrict e.infer) (ht : t.Within ∅ c.subst) (s : Span) {β : Type}
    {f g : Ty → CheckM β}
    (hf : ∀ u c', Leads ∅ c c' → Regular decls c' → Agrees decls c' (f u) (g u)) :
    Agrees decls c (do
      let u ← e.inferStrict
      f (← unifyAtStrict t u s)) (do
      let u ← e.infer
      g (← unifyAt t u s)) := by
  refine hagrees.bind he fun u c₁ h₁ hc₁ hu => ?_
  have ht₁ := h₁.within ht
  exact (agrees_unifyAt hc₁ ht₁ hu s).bind (keeps_unifyAt hc₁ ht₁ hu s)
    fun r c₂ h₂ hc₂ _ => hf r c₂ (h₁.trans h₂) hc₂

/-- The scrutinees of a match are checked first, whether their number is reported or not, then its clauses. -/
theorem Expr.agrees_matching {span nameSpan : Span} {name : String} {scrutinees : List Expr}
    {params : List Argument} {result : Ty} {clauses : List Clause} (hc : Regular decls c)
    (hagrees : ∀ c₁, Leads ∅ c c₁ → Regular decls c₁ →
      Agrees decls c₁ (Expr.inferScrutineesStrict scrutinees params) (Expr.inferScrutinees scrutinees params))
    (hscrutinees : ∀ c₁, Leads ∅ c c₁ → Regular decls c₁ →
      Expr.InfersScrutinees decls ∅ c₁ scrutinees params)
    (hclauses : ∀ c₁, Leads ∅ c c₁ → Regular decls c₁ →
      Agrees decls c₁ (Matcher.checkClausesStrict result clauses) (Matcher.checkClauses result clauses)) :
    Agrees decls c (Expr.matching span scrutinees ⟨name, nameSpan, params, result, clauses⟩).inferStrict
      (Expr.matching span scrutinees ⟨name, nameSpan, params, result, clauses⟩).infer := by
  rw [Expr.inferStrict, Expr.infer]
  by_cases hlen : params.length = scrutinees.length
  · rw [if_neg (not_not_intro hlen), if_neg (not_not_intro hlen)]
    have h : Leads ∅ c c := .refl c
    exact (hagrees c h hc).bind (hscrutinees c h hc) fun _ c₁ h₁ hc₁ _ => (hclauses c₁ h₁ hc₁).bind_same
  · rw [if_pos hlen, if_pos hlen]
    refine (Agrees.refl _).bind (keeps_report hc (.arityMismatch _ _ span) trivial) fun _ c₁ h₁ hc₁ _ => ?_
    refine (hagrees c₁ h₁ hc₁).bind (hscrutinees c₁ h₁ hc₁) fun _ c₂ h₂ hc₂ _ => ?_
    exact (hclauses c₂ (h₁.trans h₂) hc₂).bind_same

mutual

theorem Expr.infer_agrees : ∀ (e : Expr) {c : Checker}, Regular decls c → WithinAll ∅ e.types c.subst →
    Agrees decls c e.inferStrict e.infer
  | .literal _ _, c, _, _ => .refl _
  | .name s n, c, hc, _ => by
    rw [Expr.inferStrict, Expr.infer]
    exact (agrees_lookup? hc n).bind_same
  | .call _ callee args, c, hc, hts => by
    obtain ⟨hcallee, hargs⟩ := withinAll_append.mp hts
    rw [Expr.inferStrict, Expr.infer]
    refine (Expr.infer_agrees callee hc hcallee).bind (Expr.infer_keeps callee hc hcallee) ?_
    exact fun calleeTy c₁ h₁ hc₁ ht => Expr.inferCall_agrees args hc₁ (h₁.withinAll hargs) ht
  | .cond _ cond t e, c, hc, hts => by
    obtain ⟨hts, he⟩ := withinAll_append.mp hts
    obtain ⟨hcond, ht⟩ := withinAll_append.mp hts
    rw [Expr.inferStrict, Expr.infer]
    have hbool : (Ty.constant "Bool").Within ∅ c.subst := within_named.mpr (List.forall_mem_nil _)
    refine Expr.agrees_bind_unifyAt (Expr.infer_keeps cond hc hcond) (Expr.infer_agrees cond hc hcond) hbool _
      fun _ c₁ h₁ hc₁ => ?_
    have ht₁ := h₁.withinAll ht
    refine (Expr.infer_agrees t hc₁ ht₁).bind (Expr.infer_keeps t hc₁ ht₁) fun consTy c₂ h₂ hc₂ hcons => ?_
    have he₂ := (h₁.trans h₂).withinAll he
    refine (Expr.infer_agrees e hc₂ he₂).bind (Expr.infer_keeps e hc₂ he₂) fun altTy c₃ h₃ hc₃ halt => ?_
    exact agrees_unifyAt hc₃ (h₃.within hcons) halt _
  | .letIn _ n _ value body, c, hc, hts => by
    obtain ⟨hvalue, hbody⟩ := withinAll_append.mp hts
    rw [Expr.inferStrict, Expr.infer]
    refine (Expr.infer_agrees value hc hvalue).bind (Expr.infer_keeps value hc hvalue) ?_
    intro valueTy c₁ h₁ hc₁ hv
    refine agrees_withScope ((Agrees.refl _).bind (keeps_bindLocal hc₁.opened n hv) ?_)
    exact fun _ c₂ h₂ hc₂ _ => Expr.infer_agrees body hc₂ (h₂.withinAll (h₁.withinAll hbody))
  | .access _ value f _, c, hc, hts => by
    rw [Expr.types] at hts
    rw [Expr.inferStrict, Expr.infer]
    refine (Expr.infer_agrees value hc hts).bind (Expr.infer_keeps value hc hts) ?_
    exact fun valueTy c₁ _ hc₁ hv => agrees_access hc₁ hv.known f
  | .matching _ scrutinees ⟨_, _, params, result, clauses⟩, c, hc, hts => by
    obtain ⟨hscrutinees, hts⟩ := withinAll_append.mp hts
    obtain ⟨hparams, hts⟩ := withinAll_append.mp hts
    obtain ⟨hresult, hclauses⟩ := withinAll_cons.mp hts
    refine Expr.agrees_matching hc (fun c₁ h₁ hc₁ => ?_) (fun c₁ h₁ hc₁ => ?_) fun c₁ h₁ hc₁ => ?_
    · exact Expr.inferScrutinees_agrees scrutinees hc₁ (h₁.withinAll hscrutinees) (h₁.withinAll hparams)
    · exact Expr.inferScrutinees_keeps scrutinees hc₁ (h₁.withinAll hscrutinees) (h₁.withinAll hparams)
    · exact Matcher.checkClauses_agrees clauses hc₁ (h₁.within hresult) (h₁.withinAll hclauses)

theorem Expr.inferCall_agrees : ∀ (args : List Expr) {calleeTy : Ty} {c : Checker}, Regular decls c →
    WithinAll ∅ (Expr.typesAll args) c.subst → calleeTy.Within ∅ c.subst →
    Agrees decls c (Expr.inferCallStrict calleeTy args) (Expr.inferCall calleeTy args)
  | [], _, c, _, _, _ => .refl _
  | arg :: args, calleeTy, c, hc, hts, ht => by
    obtain ⟨harg, hargs⟩ := withinAll_append.mp hts
    rw [Expr.inferCallStrict, Expr.inferCall]
    refine (Expr.infer_agrees arg hc harg).bind (Expr.infer_keeps arg hc harg) fun argTy c₁ h₁ hc₁ hargTy => ?_
    refine (Agrees.refl _).bind (keeps_fresh hc₁) fun resultTy c₂ h₂ hc₂ hresult => ?_
    have hfn := within_fn.mpr ⟨h₂.within hargTy, hresult⟩
    have ht₂ := (h₁.trans h₂).within ht
    refine (agrees_unifyAt hc₂ hfn ht₂ _).bind (keeps_unifyAt hc₂ hfn ht₂ _) fun _ c₃ h₃ hc₃ _ => ?_
    exact Expr.inferCall_agrees args hc₃ (((h₁.trans h₂).trans h₃).withinAll hargs) (h₃.within hresult)

theorem Expr.inferScrutinees_agrees : ∀ (es : List Expr) {params : List Argument} {c : Checker},
    Regular decls c → WithinAll ∅ (Expr.typesAll es) c.subst →
    WithinAll ∅ (params.map (·.ty)) c.subst →
    Agrees decls c (Expr.inferScrutineesStrict es params) (Expr.inferScrutinees es params)
  | [], _, c, _, _, _ => .refl _
  | e :: es, [], c, hc, hts, hparams => by
    obtain ⟨he, hes⟩ := withinAll_append.mp hts
    rw [Expr.inferScrutineesStrict, Expr.inferScrutinees]
    refine (Expr.infer_agrees e hc he).bind (Expr.infer_keeps e hc he) fun _ c₁ h₁ hc₁ _ => ?_
    exact Expr.inferScrutinees_agrees es hc₁ (h₁.withinAll hes) (List.forall_mem_nil _)
  | e :: es, param :: params, c, hc, hts, hparams => by
    obtain ⟨he, hes⟩ := withinAll_append.mp hts
    obtain ⟨hparam, hparams⟩ := withinAll_cons.mp hparams
    rw [Expr.inferScrutineesStrict, Expr.inferScrutinees]
    refine Expr.agrees_bind_unifyAt (Expr.infer_keeps e hc he) (Expr.infer_agrees e hc he) hparam _ ?_
    exact fun _ c₁ h₁ hc₁ =>
      Expr.inferScrutinees_agrees es hc₁ (h₁.withinAll hes) (h₁.withinAll hparams)

theorem Matcher.checkClauses_agrees : ∀ (cs : List Clause) {result : Ty} {c : Checker},
    Regular decls c → result.Within ∅ c.subst → WithinAll ∅ (Matcher.clauseTypes cs) c.subst →
    Agrees decls c (Matcher.checkClausesStrict result cs) (Matcher.checkClauses result cs)
  | [], _, c, _, _, _ => .refl _
  | ⟨s, patterns, body⟩ :: cs, result, c, hc, hresult, hts => by
    obtain ⟨hts, hcs⟩ := withinAll_append.mp hts
    obtain ⟨hpatterns, hbody⟩ := withinAll_append.mp hts
    rw [Matcher.checkClausesStrict, Matcher.checkClauses]
    refine Agrees.bind ?_ (Matcher.keeps_clause hc hpatterns hresult fun c₁ h₁ hc₁ =>
      Expr.infer_keeps body hc₁ (h₁.withinAll hbody)) fun _ c₁ h₁ hc₁ _ => ?_
    · refine agrees_withScope ?_
      refine (Pattern.checkAll_agrees patterns hc.opened hpatterns).bind
        (Pattern.checkAll_keeps patterns hc.opened hpatterns) fun _ c₁ h₁ hc₁ _ => ?_
      have hbody₁ := h₁.withinAll hbody
      exact Expr.agrees_bind_unifyAt (Expr.infer_keeps body hc₁ hbody₁) (Expr.infer_agrees body hc₁ hbody₁)
        (h₁.within hresult) _ fun _ _ _ _ => .refl _
    · exact (Matcher.checkClauses_agrees cs hc₁ (h₁.within hresult) (h₁.withinAll hcs)).bind_same

end

/-- The clauses of a matcher may use its name, with one type for all uses. -/
theorem Matcher.agrees_scope (m : Matcher) (hc : Regular decls c) (hts : WithinAll ∅ m.types c.subst) :
    Agrees decls c (withScope do
      bindLocal m.name m.fnTy
      Matcher.checkClausesStrict m.result m.clauses) (withScope do
      bindLocal m.name m.fnTy
      Matcher.checkClauses m.result m.clauses) := by
  refine agrees_withScope ((Agrees.refl _).bind
    (keeps_bindLocal hc.opened m.name (Matcher.within_fnTy hts)) fun _ c₁ h₁ hc₁ _ => ?_)
  obtain ⟨_, _, params, result, clauses⟩ := m
  obtain ⟨hresult, hclauses⟩ := withinAll_cons.mp (withinAll_append.mp hts).2
  exact Matcher.checkClauses_agrees clauses hc₁ (h₁.within hresult) (h₁.withinAll hclauses)

/-- The type of a matcher is given as it is known behind its clauses. -/
theorem Matcher.agrees_clauses (m : Matcher) (hc : Regular decls c) (hts : WithinAll ∅ m.types c.subst) :
    Agrees decls c (do
      let clauses ← withScope do
        bindLocal m.name m.fnTy
        Matcher.checkClausesStrict m.result m.clauses
      return (← Checker.resolveStrict m.fnTy, { m with clauses := clauses })) (do
      let clauses ← withScope do
        bindLocal m.name m.fnTy
        Matcher.checkClauses m.result m.clauses
      return ((← get).subst.resolve m.fnTy, { m with clauses := clauses })) := by
  refine (Matcher.agrees_scope m hc hts).bind (Matcher.keeps_scope m hc hts) fun clauses c₁ h₁ hc₁ _ => ?_
  have hfn := h₁.within (Matcher.within_fnTy hts)
  rw [Agrees, run_check_bind_of_eq_ok (resolveStrict_run hc₁.valid hfn.known)]
  rfl

/-- On a matcher that is made of known types, no access to the table is out of range. -/
theorem Matcher.check_agrees (m : Matcher) (hc : Regular decls c) (hts : OverAll m.types c.subst) :
    Agrees decls c m.checkStrict m.check := by
  have hwithin : WithinAll ∅ m.types c.subst := withinAll_empty.mpr hts
  rw [Matcher.checkStrict, Matcher.check]
  refine .bind_read ?_
  cases hglobal : decls.env.global? m.name with
  | none => exact Matcher.agrees_clauses m hc hwithin
  | some signature =>
    have hover := hc.declared signature (.global hglobal)
    refine (agrees_instantiate hc hover).bind (keeps_instantiate hc hover) fun copy c₁ h₁ hc₁ hcopy => ?_
    have hfn := h₁.within (Matcher.within_fnTy hwithin)
    refine (agrees_unifyAt hc₁ hcopy hfn _).bind (keeps_unifyAt hc₁ hcopy hfn _) fun _ c₂ h₂ hc₂ _ => ?_
    exact Matcher.agrees_clauses m hc₂ ((h₁.trans h₂).withinAll hwithin)

end Clausal
