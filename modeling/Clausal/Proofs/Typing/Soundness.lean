import Clausal.Proofs.Matcher.Types
import Clausal.Proofs.Typing.Preservation

/-!
# The checker finds types

One walk over patterns, expressions and matchers shows both what every run of the checker keeps, and
that a run without reports found a type by the rules: each step establishes its equation at the moment
when it is made, and equations hold from then on. Nothing is said of what the checker reports.
-/
namespace Clausal

open Checker Substitution

variable {decls : Declarations} {kept : Set Nat} {c : Checker} {t : Ty}

/-! ## Patterns -/

namespace Pattern

theorem keeps_placeTy (hc : Regular decls c kept) {place : Option Place}
    (h : WithinAll kept (placeTypes place) c.subst) {α : Type} {f : Ty → CheckM α}
    {P : α → Substitution → Prop} {J : α → Checker → Prop}
    (hf : ∀ p, place = some p → ∀ t c', Leads kept c c' → Regular decls c' kept →
      t.Within kept c'.subst → Keeps decls kept c' (f t) P fun a c'' =>
        c'.scopes = c.scopes ∧ PlaceHas decls c.subst p t c'.subst → J a c'') :
    Keeps decls kept c (do f (← typeOfPlace (← Place.ofBound place))) P J := by
  cases place with
  | none => exact keeps_throw _
  | some place => exact (keeps_typeOfPlace hc (h _ (List.mem_singleton.mpr rfl))).bind (hf place rfl)

theorem keeps_declaredFields (hc : Regular decls c kept) (constr : String) (s : Span) :
    Keeps decls kept c (declaredFields constr s) (fun _ _ => True) fun r c' =>
      c' = c ∧ r = decls.env.constr? constr ∧ Known decls constr := by
  refine .bind_read (.bind_read ?_)
  dsimp only
  split
  case isTrue h =>
    exact (keeps_report hc (.symbolNotFound constr s) trivial).bind fun _ c₁ _ hc₁ _ =>
      keeps_pure hc₁ trivial fun h => h.elim
  case isFalse h =>
    refine keeps_pure hc trivial ⟨rfl, rfl, fun hreport => ?_⟩
    rw [hreport, Bool.and_true, Option.isNone_iff_eq_none, ← Ne, Option.ne_none_iff_isSome] at h
    exact h

theorem keeps_checkField (hc : Regular decls c kept) (declared : Option Fields) (n : String) (s : Span) :
    Keeps decls kept c (checkField declared n s) (fun _ _ => True) fun _ c' =>
      c' = c ∧ Listed declared (some n) := by
  cases declared with
  | none => exact keeps_pure hc trivial ⟨rfl, nofun⟩
  | some fields =>
    rw [checkField]
    split
    case isTrue h => exact (keeps_report hc (.symbolNotFound n s) trivial).imp fun _ _ _ h => h.elim
    case isFalse h =>
      refine keeps_pure hc trivial ⟨rfl, fun fields' hfields n' hn => ?_⟩
      cases hfields
      cases hn
      rwa [Option.isNone_iff_eq_none, ← Ne, Option.ne_none_iff_isSome] at h

theorem keeps_unifyTuple (hc : Regular decls c kept) {ts : List Ty} (ht : t.Within kept c.subst)
    (hts : WithinAll kept ts c.subst) (s : Span) :
    Keeps decls kept c (unifyTuple t ts s) (Ty.Within kept) fun r c' => c'.scopes = c.scopes ∧
      c'.subst.Same t (.named (decls.config.tupleTypeName ts.length) ts) ∧ c'.subst.Same t r :=
  .bind_read (keeps_unifyAt hc ht (within_named.mpr hts) s)

theorem keeps_expectedTy (hc : Regular decls c kept) (ht : t.Within kept c.subst) (s : Span)
    (e : Expected) : Keeps decls kept c (expectedTy t s e) (Ty.Within kept) fun u c' =>
      c'.scopes = c.scopes ∧ Expects decls c.scopes.flatten c.subst e u := by
  cases e with
  | literal l => exact keeps_pure hc (within_named.mpr (List.forall_mem_nil _)) ⟨rfl, .literal⟩
  | name n =>
    rw [expectedTy]
    refine (keeps_lookup hc n s fun c₁ h₁ hc₁ => keeps_pure hc₁ (h₁.within ht) trivial).imp ?_
    exact fun u c' _ ⟨hs, hn⟩ => ⟨hs, .name hn⟩

/-- The step checks a pattern, whose captures come into the innermost scope. -/
def Checks (decls : Declarations) (kept : Set Nat) (c : Checker) (p : Pattern) {α : Type}
    (x : CheckM (Ty × α)) : Prop :=
  Keeps decls kept c x (fun r s => r.1.Within kept s) fun r c' => c'.scopes.tail = c.scopes.tail ∧
    Matches decls c.scopes.flatten c.subst p r.1 c'.subst c'.scopes.flatten

/-- The step checks the parts of a destructured value. -/
def ChecksRow (decls : Declarations) (kept : Set Nat) (c : Checker) (declared : Option Fields)
    (parts : List Part) {α : Type} (x : CheckM (List Ty × α)) : Prop :=
  Keeps decls kept c x (fun r s => WithinAll kept r.1 s) fun r c' => c'.scopes.tail = c.scopes.tail ∧
    RowMatches decls declared c.scopes.flatten c.subst parts r.1 c'.subst c'.scopes.flatten

/-- The parts of a destructured value are checked between the constructor and the tuple type. -/
theorem checks_destructured (hc : Regular decls c kept) {place : Option Place} {constr : String}
    {cs s : Span} {p : Pattern} {parts : List Part} {α : Type}
    (row : Option Fields → CheckM (List Ty × α)) (mk : α → Pattern)
    (hplace : WithinAll kept (placeTypes place) c.subst)
    (hrow : ∀ declared c₁, Leads kept c c₁ → Regular decls c₁ kept →
      ChecksRow decls kept c₁ declared parts (row declared))
    (hmatches : ∀ {Γ Γ' s s₁ s₂ s₃ q t ts}, place = some q → PlaceHas decls s q t s₁ →
      Known decls constr → RowMatches decls (decls.env.constr? constr) Γ s₁ parts ts s₂ Γ' →
      Evolves s₂ s₃ → s₃.Same t (.named (decls.config.tupleTypeName ts.length) ts) →
      Matches decls Γ s p t s₃ Γ') :
    Checks decls kept c p (do
      let valueTy ← typeOfPlace (← Place.ofBound place)
      let declared ← declaredFields constr cs
      let (tys, fields) ← row declared
      return (← unifyTuple valueTy tys s, mk fields)) := by
  refine keeps_placeTy hc hplace fun q hq valueTy c₁ h₁ hc₁ hvalue => ?_
  refine (keeps_declaredFields hc₁ constr cs).bind fun declared c₂ h₂ hc₂ _ => ?_
  refine Keeps.bind (hrow declared c₂ (h₁.trans h₂) hc₂) fun r c₃ h₃ hc₃ hr => ?_
  refine (keeps_unifyTuple hc₃ ((h₂.trans h₃).within hvalue) hr s).bind fun ty c₄ h₄ hc₄ hty => ?_
  refine keeps_pure hc₄ hty fun ⟨hs₄, hsame, hresult⟩ ⟨htail, hrow⟩ ⟨hc₂₁, hdecl, hknown⟩
    ⟨hs₁, hhas⟩ => ?_
  subst hc₂₁ hdecl
  rw [hs₁] at htail hrow
  rw [hs₄]
  exact ⟨htail, .later (hmatches hq hhas hknown hrow h₄.evolves hsame) .refl hresult⟩

/-- A capture has a type that is that of its value and as declared, and comes into the innermost scope. -/
theorem keeps_captured (hc : Regular decls c kept) {valueTy declared : Ty}
    (hvalue : valueTy.Within kept c.subst) (hdeclared : declared.Within kept c.subst) (s : Span) (n : String)
    (place : Option Place) :
    Keeps decls kept c (do
      let ty ← unifyAt valueTy declared s
      bindLocal n ty
      return (ty, capture s n (some ty) place)) (fun r s => r.1.Within kept s) fun r c' =>
        c'.scopes.tail = c.scopes.tail ∧ c'.scopes.flatten = (n, r.1) :: c.scopes.flatten ∧
        c'.subst.Same valueTy declared ∧ c'.subst.Same valueTy r.1 := by
  refine (keeps_unifyAt hc hvalue hdeclared s).bind fun ty c₁ h₁ hc₁ hty => ?_
  refine (keeps_bindLocal hc₁ n hty).bind fun _ c₂ h₂ hc₂ _ => keeps_pure hc₂ (h₂.within hty) ?_
  intro ⟨hsubst, hflat, htail⟩ ⟨hs₁, hsame, hresult⟩
  rw [hflat, htail, hsubst, hs₁]
  exact ⟨rfl, rfl, hsame, hresult⟩

/-- The first part of a destructured value is checked before the others. Whatever looks its field up has
been done by then. -/
theorem keeps_row {declared : Option Fields} {p : Pattern} {parts : List Part} {α β γ : Type}
    {first : CheckM (Ty × α)} {others : CheckM (List Ty × β)} (field? : Option String) (mk : α → β → γ)
    (hfirst : Checks decls kept c p first)
    (hothers : ∀ c₁, Leads kept c c₁ → Regular decls c₁ kept →
      ChecksRow decls kept c₁ declared parts others) :
    Keeps decls kept c (do
      let (ty, a) ← first
      let (tys, b) ← others
      return (ty :: tys, mk a b)) (fun r s => WithinAll kept r.1 s) fun r c' =>
        Listed declared field? → c'.scopes.tail = c.scopes.tail ∧ RowMatches decls declared
          c.scopes.flatten c.subst ((field?, p) :: parts) r.1 c'.subst c'.scopes.flatten := by
  refine Keeps.bind hfirst fun r c₁ h₁ hc₁ hr => ?_
  refine Keeps.bind (hothers c₁ h₁ hc₁) fun rs c₂ h₂ hc₂ hrs => ?_
  refine keeps_pure hc₂ (withinAll_cons.mpr ⟨h₂.within hr, hrs⟩) ?_
  intro ⟨htail', hrow⟩ ⟨htail, hmatch⟩ hlisted
  exact ⟨htail'.trans htail, .cons hlisted hmatch hrow⟩

mutual

theorem check_keeps : ∀ (p : Pattern) {c : Checker}, Regular decls c kept →
    WithinAll kept p.types c.subst → Checks decls kept c p p.check
  | .ignore s, c, hc, _ => (keeps_fresh hc).bind fun t c₁ h₁ hc₁ ht => keeps_pure hc₁ ht fun hs => by
      rw [hs]
      exact ⟨rfl, .later .ignore h₁.evolves (.refl _ t)⟩
  | .group _ _, c, _, _ => keeps_throw _
  | .capture s n annotation place, c, hc, hts => by
    obtain ⟨hann, hplace⟩ := withinAll_append.mp hts
    rw [Checks, check]
    refine keeps_placeTy hc hplace fun p hp valueTy c₁ h₁ hc₁ hvalue => ?_
    subst hp
    cases annotation with
    | none =>
      refine (keeps_fresh hc₁).bind fun declared c₂ h₂ hc₂ hdeclared => ?_
      refine (keeps_captured hc₂ (h₂.within hvalue) hdeclared s n (some p)).imp ?_
      intro r c₃ h₃ ⟨htail, hflat, _, hresult⟩ hs₂ ⟨hs₁, hhas⟩
      rw [htail, hflat, hs₂, hs₁]
      refine ⟨rfl, .capture (hhas.later (h₂.trans h₃).evolves hresult) fun _ hnone => ?_⟩
      exact absurd hnone (Option.not_mem_none _)
    | some declared =>
      have hdeclared := h₁.within (hann declared (List.mem_singleton.mpr rfl))
      refine (keeps_captured hc₁ hvalue hdeclared s n (some p)).imp ?_
      intro r c₂ h₂ ⟨htail, hflat, hsame, hresult⟩ ⟨hs₁, hhas⟩
      rw [htail, hflat, hs₁]
      refine ⟨rfl, .capture (hhas.later h₂.evolves hresult) fun u hu => ?_⟩
      rw [← Option.mem_some.mp hu]
      exact hsame.symm.trans hresult
  | .equal s e place, c, hc, hts => by
    rw [Checks, check]
    refine keeps_placeTy hc hts fun p hp valueTy c₁ h₁ hc₁ hvalue => ?_
    subst hp
    refine (keeps_expectedTy hc₁ hvalue s e).bind fun expected c₂ h₂ hc₂ he => ?_
    refine (keeps_unifyAt hc₂ (h₂.within hvalue) he s).bind fun ty c₃ h₃ hc₃ hty => ?_
    refine keeps_pure hc₃ hty fun ⟨hs₃, hsame, hresult⟩ ⟨hs₂, hexpects⟩ ⟨hs₁, hhas⟩ => ?_
    rw [hs₁] at hexpects
    rw [hs₃, hs₂, hs₁]
    exact ⟨rfl, .later (.equal hhas hexpects (h₂.trans h₃).evolves hsame) .refl hresult⟩
  | .record s constr cs fields place, c, hc, hts => by
    obtain ⟨hplace, hfields⟩ := withinAll_append.mp hts
    rw [check]
    refine checks_destructured hc (checkFields · fields) (.record s constr cs · place) hplace
      (fun declared c₁ h₁ hc₁ => checkFields_keeps declared fields hc₁ (h₁.withinAll hfields)) ?_
    intro Γ Γ' _ s₁ s₂ s₃ q t ts hq hhas hknown hrow hlater hsame
    rw [hrow.length_eq, List.length_map] at hsame
    rw [hq]
    exact .record hhas hknown hrow hlater hsame
  | .tuple s constr cs fields place, c, hc, hts => by
    obtain ⟨hplace, hfields⟩ := withinAll_append.mp hts
    rw [check]
    refine checks_destructured hc (checkPositions · fields) (.tuple s constr cs · place) hplace
      (fun declared c₁ h₁ hc₁ => checkPositions_keeps declared fields hc₁ (h₁.withinAll hfields)) ?_
    intro Γ Γ' _ s₁ s₂ s₃ q t ts hq hhas hknown hrow hlater hsame
    rw [hrow.length_eq, List.length_map] at hsame
    rw [hq]
    exact .tuple hhas hknown hrow hlater hsame

theorem checkFields_keeps : ∀ (declared : Option Fields) (fs : List FieldPattern) {c : Checker},
    Regular decls c kept → WithinAll kept (fieldTypes fs) c.subst →
    ChecksRow decls kept c declared (fs.map FieldPattern.part) (checkFields declared fs)
  | _, [], c, hc, _ => keeps_pure hc nofun ⟨rfl, .nil⟩
  | declared, ⟨n, ns, p⟩ :: fs, c, hc, hts => by
    obtain ⟨hp, hfs⟩ := withinAll_append.mp hts
    rw [ChecksRow, checkFields]
    refine (keeps_checkField hc declared n ns).bind fun _ c₁ h₁ hc₁ _ => ?_
    refine (keeps_row (some n) (fun q gs => ⟨n, ns, q⟩ :: gs) (check_keeps p hc₁ (h₁.withinAll hp))
      fun c₂ h₂ hc₂ => checkFields_keeps declared fs hc₂ ((h₁.trans h₂).withinAll hfs)).imp ?_
    intro _ _ _ h ⟨heq, hlisted⟩
    subst heq
    exact h hlisted

theorem checkPositions_keeps : ∀ (declared : Option Fields) (ps : List Pattern) {c : Checker},
    Regular decls c kept → WithinAll kept (typesAll ps) c.subst →
    ChecksRow decls kept c declared (ps.map Pattern.part) (checkPositions declared ps)
  | _, [], c, hc, _ => keeps_pure hc nofun ⟨rfl, .nil⟩
  | declared, p :: ps, c, hc, hts => by
    obtain ⟨hp, hps⟩ := withinAll_append.mp hts
    rw [ChecksRow, checkPositions]
    cases hname : p.place?.bind Place.fieldName? with
    | none =>
      rw [List.map_cons, part, hname]
      exact (keeps_row none (· :: ·) (check_keeps p hc hp) fun c₁ h₁ hc₁ =>
        checkPositions_keeps declared ps hc₁ (h₁.withinAll hps)).imp fun _ _ _ h => h nofun
    | some n =>
      rw [List.map_cons, part, hname]
      refine (keeps_checkField hc declared n p.span).bind fun _ c₁ h₁ hc₁ _ => ?_
      refine (keeps_row (some n) (· :: ·) (check_keeps p hc₁ (h₁.withinAll hp)) fun c₂ h₂ hc₂ =>
        checkPositions_keeps declared ps hc₂ ((h₁.trans h₂).withinAll hps)).imp ?_
      intro _ _ _ h ⟨heq, hlisted⟩
      subst heq
      exact h hlisted

end

theorem checkAll_keeps : ∀ (ps : List Pattern) {c : Checker}, Regular decls c kept →
    WithinAll kept (typesAll ps) c.subst → Keeps decls kept c (checkAll ps) (fun _ _ => True) fun _ c' =>
      c'.scopes.tail = c.scopes.tail ∧ ∃ ts, RowMatches decls none c.scopes.flatten c.subst
        (ps.map Pattern.part) ts c'.subst c'.scopes.flatten
  | [], c, hc, _ => keeps_pure hc trivial ⟨rfl, [], .nil⟩
  | p :: ps, c, hc, hts => by
    obtain ⟨hp, hps⟩ := withinAll_append.mp hts
    rw [checkAll]
    refine Keeps.bind (check_keeps p hc hp) fun r c₁ h₁ hc₁ _ => ?_
    refine (checkAll_keeps ps hc₁ (h₁.withinAll hps)).bind fun _ c₂ _ hc₂ _ => ?_
    refine keeps_pure hc₂ trivial fun ⟨htail', ts, hrow⟩ ⟨htail, hmatch⟩ => ?_
    exact ⟨htail'.trans htail, _, .cons nofun hmatch hrow⟩

end Pattern

/-! ## Expressions and matchers -/

/-- Inferring the type of an expression, which leaves the scopes as they were. -/
def Expr.Infers (decls : Declarations) (kept : Set Nat) (c : Checker) (e : Expr) : Prop :=
  Keeps decls kept c e.infer (Ty.Within kept) fun t c' => c'.scopes = c.scopes ∧
    HasType decls c.scopes.flatten c.subst e t c'.subst

/-- Inferring a type and unifying it with one that is known. -/
theorem Expr.Infers.bind_unifyAt {e : Expr} (h : e.Infers decls kept c) (ht : t.Within kept c.subst)
    (s : Span) {β : Type} {f : Ty → CheckM β} {P : β → Substitution → Prop}
    {K : β → Checker → Prop}
    (hf : ∀ u c', Leads kept c c' → Regular decls c' kept → u.Within kept c'.subst →
      Keeps decls kept c' (f u) P fun b c'' => (c'.scopes = c.scopes ∧
        HasType decls c.scopes.flatten c.subst e t c'.subst) → K b c'') :
    Keeps decls kept c (do
      let u ← e.infer
      f (← Checker.unifyAt t u s)) P K := by
  refine Keeps.bind h fun u c₁ h₁ hc₁ hu => ?_
  refine (keeps_unifyAt hc₁ (h₁.within ht) hu s).bind fun r c₂ h₂ hc₂ hr => ?_
  refine (hf r c₂ (h₁.trans h₂) hc₂ hr).imp fun b c₃ _ hk ⟨hs₂, hsame, _⟩ ⟨hs₁, he⟩ => ?_
  exact hk ⟨hs₂.trans hs₁, he.later h₂.evolves hsame.symm⟩

/-- Giving each scrutinee the type of its placeholder. If there are as many, each has it. -/
def Expr.InfersScrutinees (decls : Declarations) (kept : Set Nat) (c : Checker) (es : List Expr)
    (params : List Argument) : Prop :=
  Keeps decls kept c (Expr.inferScrutinees es params) (fun _ _ => True) fun _ c' =>
    params.length = es.length →
    c'.scopes = c.scopes ∧ Scrutinized decls c.scopes.flatten c.subst es params c'.subst

/-- Checking clauses, which leaves the scopes as they were. -/
def Matcher.ChecksClauses (decls : Declarations) (kept : Set Nat) (c : Checker) (result : Ty)
    (cs : List Clause) : Prop :=
  Keeps decls kept c (Matcher.checkClauses result cs) (fun _ _ => True) fun _ c' =>
    c'.scopes = c.scopes ∧ ClausesTyped decls c.scopes.flatten c.subst result cs c'.subst

section

variable {result : Ty} {scrutinees : List Expr} {params : List Argument} {clauses : List Clause}
  {patterns : List Pattern} {body : Expr}

/-- The body of a clause is checked with the captures of its patterns, which are out of scope behind it. -/
theorem Matcher.keeps_clause (hc : Regular decls c kept)
    (hpatterns : WithinAll kept (Pattern.typesAll patterns) c.subst) (hresult : result.Within kept c.subst)
    (hbody : ∀ c₁, Leads kept c.opened c₁ → Regular decls c₁ kept → body.Infers decls kept c₁) :
    Keeps decls kept c (withScope do
      let patterns ← Pattern.checkAll patterns
      let bodyTy ← body.infer
      let _ ← unifyAt result bodyTy body.span
      return patterns) (fun _ _ => True) fun _ c' => c'.scopes = c.scopes ∧ ∃ ts Γ s₁,
        RowMatches decls none c.scopes.flatten c.subst (patterns.map Pattern.part) ts s₁ Γ ∧
        HasType decls Γ s₁ body result c'.subst := by
  refine keeps_withScope ?_
  refine (Pattern.checkAll_keeps patterns hc.opened hpatterns).bind fun _ c₁ h₁ hc₁ _ => ?_
  refine (hbody c₁ h₁ hc₁).bind_unifyAt (h₁.within hresult) _ fun _ c₂ _ hc₂ _ => ?_
  refine keeps_pure hc₂ trivial fun ⟨hs₂, hhas⟩ ⟨htail, ts, hrow⟩ => ?_
  exact ⟨(congrArg List.tail hs₂).trans htail, ts, _, _, hrow, hhas⟩

/-- The scrutinees of a match are checked first, then its clauses. -/
theorem Expr.keeps_matched (span nameSpan : Span) (name : String) (hresult : result.Within kept c.subst)
    (hscrutinees : Expr.InfersScrutinees decls kept c scrutinees params)
    (hclauses : ∀ c₁, Leads kept c c₁ → Regular decls c₁ kept →
      Matcher.ChecksClauses decls kept c₁ result clauses) :
    Keeps decls kept c (do
      Expr.inferScrutinees scrutinees params
      let _ ← Matcher.checkClauses result clauses
      return result) (Ty.Within kept) fun t c' => params.length = scrutinees.length →
        c'.scopes = c.scopes ∧ HasType decls c.scopes.flatten c.subst
          (.matching span scrutinees ⟨name, nameSpan, params, result, clauses⟩) t c'.subst := by
  refine Keeps.bind hscrutinees fun _ c₁ h₁ hc₁ _ => ?_
  refine Keeps.bind (hclauses c₁ h₁ hc₁) fun _ c₂ h₂ hc₂ _ => ?_
  refine keeps_pure hc₂ ((h₁.trans h₂).within hresult) fun ⟨hs₂, htyped⟩ hscrutinized hlen => ?_
  obtain ⟨hs₁, hscrutinized⟩ := hscrutinized hlen
  rw [hs₁] at htyped
  exact ⟨hs₂.trans hs₁, .matching hscrutinized htyped⟩

/-- A wrong number of scrutinees is reported, and the rest is checked all the same. -/
theorem Expr.infers_matching {span nameSpan : Span} {name : String}
    (hc : Regular decls c kept) (hresult : result.Within kept c.subst)
    (hscrutinees : ∀ c₁, Leads kept c c₁ → Regular decls c₁ kept →
      Expr.InfersScrutinees decls kept c₁ scrutinees params)
    (hclauses : ∀ c₁, Leads kept c c₁ → Regular decls c₁ kept →
      Matcher.ChecksClauses decls kept c₁ result clauses) :
    (Expr.matching span scrutinees ⟨name, nameSpan, params, result, clauses⟩).Infers decls kept c := by
  rw [Expr.Infers, Expr.infer]
  by_cases hlen : params.length = scrutinees.length
  · rw [if_neg (not_not_intro hlen)]
    exact (Expr.keeps_matched span nameSpan name hresult (hscrutinees c (.refl c) hc) hclauses).imp
      fun _ _ _ h => h hlen
  · rw [if_pos hlen]
    refine (keeps_report hc (.arityMismatch params.length scrutinees.length span) trivial).bind ?_
    intro _ c₁ h₁ hc₁ _
    exact (Expr.keeps_matched span nameSpan name (h₁.within hresult) (hscrutinees c₁ h₁ hc₁)
      fun c₂ h₂ hc₂ => hclauses c₂ (h₁.trans h₂) hc₂).imp fun _ _ _ _ h => h.elim

end

mutual

theorem Expr.infer_keeps : ∀ (e : Expr) {c : Checker}, Regular decls c kept →
    WithinAll kept e.types c.subst → e.Infers decls kept c
  | .literal _ l, c, hc, _ => keeps_pure hc (within_named.mpr (List.forall_mem_nil _)) ⟨rfl, .literal⟩
  | .name s n, c, hc, _ => by
    rw [Expr.Infers, Expr.infer]
    refine (keeps_lookup hc n s fun c₁ _ hc₁ => (keeps_fresh hc₁).imp fun _ _ _ _ => trivial).imp ?_
    exact fun t c' h ⟨hs, hn⟩ => ⟨hs, .later (.name hn) h.evolves (.refl _ t)⟩
  | .call _ callee args, c, hc, hts => by
    obtain ⟨hcallee, hargs⟩ := withinAll_append.mp hts
    rw [Expr.Infers, Expr.infer]
    refine Keeps.bind (Expr.infer_keeps callee hc hcallee) fun calleeTy c₁ h₁ hc₁ ht => ?_
    refine (Expr.inferCall_keeps args hc₁ (h₁.withinAll hargs) ht).imp ?_
    intro t c' _ ⟨hs', happ⟩ ⟨hs, hfn⟩
    rw [hs] at happ
    exact ⟨hs'.trans hs, .call hfn happ⟩
  | .cond _ cond t e, c, hc, hts => by
    obtain ⟨hts, he⟩ := withinAll_append.mp hts
    obtain ⟨hcond, ht⟩ := withinAll_append.mp hts
    rw [Expr.Infers, Expr.infer]
    have hbool : (Ty.constant "Bool").Within kept c.subst := within_named.mpr (List.forall_mem_nil _)
    refine (Expr.infer_keeps cond hc hcond).bind_unifyAt hbool _ fun _ c₁ h₁ hc₁ _ => ?_
    refine Keeps.bind (Expr.infer_keeps t hc₁ (h₁.withinAll ht)) fun consTy c₂ h₂ hc₂ hcons => ?_
    refine Keeps.bind (Expr.infer_keeps e hc₂ ((h₁.trans h₂).withinAll he))
      fun altTy c₃ h₃ hc₃ halt => ?_
    refine (keeps_unifyAt hc₃ (h₃.within hcons) halt _).imp ?_
    intro r c₄ h₄ ⟨hs₄, hsame, hresult⟩ ⟨hs₃, helse⟩ ⟨hs₂, hthen⟩ ⟨hs₁, hcondition⟩
    -- the branches are found at different moments and get one type at the last
    rw [hs₁] at hthen
    rw [hs₂, hs₁] at helse
    rw [hs₄, hs₃, hs₂, hs₁]
    exact ⟨rfl, .later (.cond hcondition hthen (helse.later h₄.evolves hsame.symm)) .refl hresult⟩
  | .letIn _ n _ value body, c, hc, hts => by
    obtain ⟨hvalue, hbody⟩ := withinAll_append.mp hts
    rw [Expr.Infers, Expr.infer]
    refine Keeps.bind (Expr.infer_keeps value hc hvalue) fun valueTy c₁ h₁ hc₁ hv => ?_
    refine keeps_withScope ((keeps_bindLocal hc₁.opened n hv).bind fun _ c₂ h₂ hc₂ _ => ?_)
    refine Keeps.imp (Expr.infer_keeps body hc₂ (h₂.withinAll (h₁.withinAll hbody))) ?_
    intro t c₃ _ ⟨hs₃, hbody⟩ ⟨hsubst, hflat, htail⟩ ⟨hs₁, hvalue⟩
    rw [hsubst, hflat] at hbody
    refine ⟨(congrArg List.tail hs₃).trans (htail.trans hs₁), .letIn hvalue ?_⟩
    rw [← hs₁]
    exact hbody
  | .access _ value f _, c, hc, hts => by
    rw [Expr.types] at hts
    rw [Expr.Infers, Expr.infer]
    refine Keeps.bind (Expr.infer_keeps value hc hts) fun valueTy c₁ _ hc₁ hv => ?_
    exact (keeps_access hc₁ hv.known f).imp fun t c₂ _ ⟨hs₂, hfield⟩ ⟨hs₁, hvalue⟩ =>
      ⟨hs₂.trans hs₁, hfield hvalue⟩
  | .matching _ scrutinees ⟨_, _, params, result, clauses⟩, c, hc, hts => by
    obtain ⟨hscrutinees, hts⟩ := withinAll_append.mp hts
    obtain ⟨hparams, hts⟩ := withinAll_append.mp hts
    obtain ⟨hresult, hclauses⟩ := withinAll_cons.mp hts
    refine Expr.infers_matching hc hresult (fun c₁ h₁ hc₁ => ?_) fun c₁ h₁ hc₁ => ?_
    · exact Expr.inferScrutinees_keeps scrutinees hc₁ (h₁.withinAll hscrutinees) (h₁.withinAll hparams)
    · exact Matcher.checkClauses_keeps clauses hc₁ (h₁.within hresult) (h₁.withinAll hclauses)

theorem Expr.inferCall_keeps : ∀ (args : List Expr) {calleeTy : Ty} {c : Checker}, Regular decls c kept →
    WithinAll kept (Expr.typesAll args) c.subst → calleeTy.Within kept c.subst →
    Keeps decls kept c (Expr.inferCall calleeTy args) (Ty.Within kept) fun t c' => c'.scopes = c.scopes ∧
      Applies decls c.scopes.flatten c.subst calleeTy args t c'.subst
  | [], calleeTy, c, hc, _, ht => keeps_pure hc ht ⟨rfl, .nil⟩
  | arg :: args, calleeTy, c, hc, hts, ht => by
    obtain ⟨harg, hargs⟩ := withinAll_append.mp hts
    rw [Expr.inferCall]
    refine Keeps.bind (Expr.infer_keeps arg hc harg) fun argTy c₁ h₁ hc₁ hargTy => ?_
    refine (keeps_fresh hc₁).bind fun resultTy c₂ h₂ hc₂ hresult => ?_
    have hfn := within_fn.mpr ⟨h₂.within hargTy, hresult⟩
    have h₁₂ := h₁.trans h₂
    refine (keeps_unifyAt hc₂ hfn (h₁₂.within ht) _).bind fun _ c₃ h₃ hc₃ _ => ?_
    refine (Expr.inferCall_keeps args hc₃ ((h₁₂.trans h₃).withinAll hargs) (h₃.within hresult)).imp ?_
    intro t c₄ _ ⟨hs₄, happ⟩ ⟨hs₃, hsame, _⟩ hs₂ ⟨hs₁, hargument⟩
    rw [hs₃, hs₂, hs₁] at hs₄ happ
    exact ⟨hs₄, .cons hargument (h₂.trans h₃).evolves hsame.symm happ⟩

theorem Expr.inferScrutinees_keeps : ∀ (es : List Expr) {params : List Argument} {c : Checker},
    Regular decls c kept → WithinAll kept (Expr.typesAll es) c.subst →
    WithinAll kept (params.map (·.ty)) c.subst → Expr.InfersScrutinees decls kept c es params
  | [], params, c, hc, _, _ => keeps_pure hc trivial fun hlen => by
    rw [List.length_eq_zero_iff.mp hlen]
    exact ⟨rfl, .nil⟩
  | e :: es, [], c, hc, hts, hparams => by
    obtain ⟨he, hes⟩ := withinAll_append.mp hts
    rw [Expr.InfersScrutinees, Expr.inferScrutinees]
    refine Keeps.bind (Expr.infer_keeps e hc he) fun _ c₁ h₁ hc₁ _ => ?_
    exact (Expr.inferScrutinees_keeps es hc₁ (h₁.withinAll hes) fun t ht => by cases ht).imp
      fun _ _ _ _ _ hlen => nomatch hlen
  | e :: es, param :: params, c, hc, hts, hparams => by
    obtain ⟨he, hes⟩ := withinAll_append.mp hts
    obtain ⟨hparam, hparams⟩ := withinAll_cons.mp hparams
    rw [Expr.InfersScrutinees, Expr.inferScrutinees]
    refine (Expr.infer_keeps e hc he).bind_unifyAt hparam _ fun _ c₁ h₁ hc₁ _ => ?_
    refine (Expr.inferScrutinees_keeps es hc₁ (h₁.withinAll hes) (h₁.withinAll hparams)).imp ?_
    intro _ c₂ _ h ⟨hs₁, hhas⟩ hlen
    obtain ⟨hs₂, hrest⟩ := h (Nat.succ_injective hlen)
    rw [hs₁] at hs₂ hrest
    exact ⟨hs₂, .cons hhas hrest⟩

theorem Matcher.checkClauses_keeps : ∀ (cs : List Clause) {result : Ty} {c : Checker},
    Regular decls c kept → result.Within kept c.subst → WithinAll kept (Matcher.clauseTypes cs) c.subst →
    Matcher.ChecksClauses decls kept c result cs
  | [], result, c, hc, _, _ => keeps_pure hc trivial ⟨rfl, .nil .refl⟩
  | ⟨s, patterns, body⟩ :: cs, result, c, hc, hresult, hts => by
    obtain ⟨hts, hcs⟩ := withinAll_append.mp hts
    obtain ⟨hpatterns, hbody⟩ := withinAll_append.mp hts
    rw [Matcher.ChecksClauses, Matcher.checkClauses]
    refine (Matcher.keeps_clause hc hpatterns hresult fun c₁ h₁ hc₁ =>
      Expr.infer_keeps body hc₁ (h₁.withinAll hbody)).bind fun _ c₁ h₁ hc₁ _ => ?_
    refine (Matcher.checkClauses_keeps cs hc₁ (h₁.within hresult) (h₁.withinAll hcs)).bind
      fun _ c₂ _ hc₂ _ => keeps_pure hc₂ trivial ?_
    intro ⟨hs₂, hrest⟩ ⟨hs₁, ts, Γ, s₁, hrow, hhas⟩
    rw [hs₁] at hs₂ hrest
    exact ⟨hs₂, .cons hrow hhas hrest⟩

end

theorem Matcher.within_fnTy {m : Matcher} {s : Substitution} (h : WithinAll kept m.types s) :
    m.fnTy.Within kept s := by
  obtain ⟨_, _, params, result, clauses⟩ := m
  obtain ⟨hparams, hts⟩ := withinAll_append.mp h
  exact within_curried hparams (withinAll_cons.mp hts).1

/-- The clauses of a matcher may use its name, with one type for all uses. -/
theorem Matcher.keeps_scope (m : Matcher) (hc : Regular decls c kept)
    (hts : WithinAll kept m.types c.subst) :
    Keeps decls kept c (withScope do
      bindLocal m.name m.fnTy
      Matcher.checkClauses m.result m.clauses) (fun _ _ => True) fun _ c' =>
        ClausesTyped decls ((m.name, m.fnTy) :: c.scopes.flatten) c.subst m.result m.clauses c'.subst := by
  refine keeps_withScope ((keeps_bindLocal hc.opened m.name (Matcher.within_fnTy hts)).bind
    fun _ c₁ h₁ hc₁ _ => ?_)
  obtain ⟨_, _, params, result, clauses⟩ := m
  obtain ⟨hresult, hclauses⟩ := withinAll_cons.mp (withinAll_append.mp hts).2
  refine Keeps.imp (Matcher.checkClauses_keeps clauses hc₁ (h₁.within hresult) (h₁.withinAll hclauses)) ?_
  intro _ c₂ _ ⟨_, htyped⟩ ⟨hsubst, hflat, _⟩
  rw [hsubst, hflat] at htyped
  exact htyped

/-- The type of a matcher is given as it is known behind its clauses. -/
theorem Matcher.keeps_clauses (m : Matcher) (hc : Regular decls c kept)
    (hts : WithinAll kept m.types c.subst) :
    Keeps decls kept c (do
      let clauses ← withScope do
        bindLocal m.name m.fnTy
        Matcher.checkClauses m.result m.clauses
      return ((← get).subst.resolve m.fnTy, { m with clauses := clauses }))
      (fun r s => r.1.Within kept s) fun r c' =>
        ClausesTyped decls ((m.name, m.fnTy) :: c.scopes.flatten) c.subst m.result m.clauses c'.subst ∧
        c'.subst.Same r.1 m.fnTy := by
  refine (Matcher.keeps_scope m hc hts).bind fun clauses c₁ h₁ hc₁ _ => .bind_get ?_
  have hfn := h₁.within (Matcher.within_fnTy hts)
  refine keeps_pure hc₁ (hc₁.valid.within_resolve hfn) fun htyped => ⟨htyped, ?_⟩
  exact hc₁.valid.same_resolve hfn.known

theorem Matcher.check_keeps_within (m : Matcher) (hc : Regular decls c kept)
    (hts : WithinAll kept m.types c.subst) :
    Keeps decls kept c m.check (fun r s => r.1.Within kept s) fun r c' =>
      MatcherTyped decls c.scopes.flatten c.subst m c'.subst ∧ c'.subst.Same r.1 m.fnTy := by
  rw [Matcher.check]
  refine .bind_read ?_
  cases hglobal : decls.env.global? m.name with
  | none =>
    refine (Matcher.keeps_clauses m hc hts).imp fun r c' _ ⟨htyped, hsame⟩ => ?_
    refine ⟨⟨c.subst, .refl, ?_, htyped⟩, hsame⟩
    rw [hglobal]
    exact nofun
  | some signature =>
    refine (keeps_instantiate hc (hc.declared signature (.global hglobal))).bind
      fun copy c₁ h₁ hc₁ hcopy => ?_
    have hfn := h₁.within (Matcher.within_fnTy hts)
    refine (keeps_unifyAt hc₁ hcopy hfn _).bind fun _ c₂ h₂ hc₂ _ => ?_
    refine (Matcher.keeps_clauses m hc₂ ((h₁.trans h₂).withinAll hts)).imp ?_
    intro r c₃ _ ⟨htyped, hresult⟩ ⟨hs₂, hsame, _⟩ ⟨hs₁, hinst⟩
    rw [hs₂, hs₁] at htyped
    refine ⟨⟨c₂.subst, (h₁.trans h₂).evolves, fun signature' h => ?_, htyped⟩, hresult⟩
    cases hglobal.symm.trans h
    exact ⟨copy, hinst, hsame⟩

/-- With nothing to keep, the matcher may be made of any types. -/
theorem Matcher.check_keeps (m : Matcher) (hc : Regular decls c) (hts : OverAll m.types c.subst) :
    Keeps decls ∅ c m.check (fun r s => r.1.Within ∅ s) fun r c' =>
      MatcherTyped decls c.scopes.flatten c.subst m c'.subst ∧ c'.subst.Same r.1 m.fnTy :=
  Matcher.check_keeps_within m hc (withinAll_empty.mpr hts)

end Clausal
