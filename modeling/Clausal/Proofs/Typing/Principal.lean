import Clausal.Proofs.Typing.Solving
import Clausal.Proofs.Typing.Soundness

/-!
# The checker loses no type

A matcher that has a type by the exact rules is checked without a type error, and the type that the
checker gives has every type by these rules as an instance. The checker does not know the assignment of
a derivation; it is carried through the run beside it, and tells at each new variable what the derivation
has in its place.
-/
namespace Clausal

open Checker Substitution

variable {decls : Declarations} {kept : Set Nat} {c₀ c : Checker} {θ₀ θ : Assignment} {t : Ty}
  {Γ Γ' : Scope} {outer : List Scope}

/-! ## Patterns -/

namespace Pattern

theorem solves_declaredFields (h : Solved decls kept c θ) (constr : String) (s : Span) :
    Solves decls kept c θ (declaredFields constr s) fun _ c' _ => c'.scopes = c.scopes := by
  refine .bind_read (.bind_read ?_)
  dsimp only
  split
  · exact (solves_report h rfl).bind fun _ c₁ θ₁ h₁ hs => solves_pure h₁.solved hs
  · exact solves_pure h rfl

theorem solves_checkField (h : Solved decls kept c θ) (declared : Option Fields) (n : String) (s : Span) :
    Solves decls kept c θ (checkField declared n s) fun _ c' _ => c'.scopes = c.scopes := by
  cases declared with
  | none => exact solves_pure h rfl
  | some fields =>
    rw [checkField]
    split
    · exact solves_report h rfl
    · exact solves_pure h rfl

theorem solves_expectedTy (h₀ : Begins decls kept c₀) (h : Carries decls kept c₀ θ₀ c θ) {e : Expected}
    (he : Expects decls (c.scopeUnder θ) c₀.subst e t) (valueTy : Ty) (s : Span) :
    Solves decls kept c θ (expectedTy valueTy s e) (Gives kept c.scopes t) := by
  cases he with
  | literal => exact solves_pure h.solved ⟨within_named.mpr (List.forall_mem_nil _), rfl, rfl⟩
  | name hn =>
    rw [expectedTy]
    exact solves_lookup h₀ h hn s _

/-- What the types found for parts stand for. The innermost scope has come to hold these locals. -/
structure GivesRow (kept : Set Nat) (outer : List Scope) (Γ : Scope) (ts us : List Ty) (c : Checker)
    (θ : Assignment) : Prop where
  within : WithinAll kept us c.subst
  under_eq : us.map (·.under θ) = ts
  scope_eq : c.scopeUnder θ = Γ
  scopes_eq : ∃ scope, c.scopes = scope :: outer

variable {scope : Scope} {ts us : List Ty} {u : Ty} {c' : Checker} {θ' : Assignment}

theorem GivesRow.single (hu : Gives kept (scope :: outer) t u c θ) (hΓ : c.scopeUnder θ = Γ) :
    GivesRow kept outer Γ [t] [u] c θ :=
  ⟨List.forall_mem_singleton.mpr hu.within, congrArg ([·]) hu.under_eq, hΓ, scope, hu.scopes_eq⟩

theorem GivesRow.cons (hu : GivesRow kept outer Γ [t] [u] c θ) (h : Carries decls kept c θ c' θ')
    (hus : GivesRow kept outer Γ' ts us c' θ') : GivesRow kept outer Γ' (t :: ts) (u :: us) c' θ' where
  within := withinAll_cons.mpr ⟨h.leads.within (hu.within u List.mem_cons_self), hus.within⟩
  under_eq := by
    have hhead : u.under θ' = t :=
      (h.under_eq (hu.within u List.mem_cons_self).known).trans (List.cons.inj hu.under_eq).1
    rw [List.map_cons, hus.under_eq, hhead]
  scope_eq := hus.scope_eq
  scopes_eq := hus.scopes_eq

/-- A pattern that matches values of this type is found to do so, and its captures come into scope. -/
def Settles (decls : Declarations) (kept : Set Nat) (c : Checker) (θ : Assignment) (outer : List Scope)
    (Γ : Scope) (t : Ty) {α : Type} (x : CheckM (Ty × α)) : Prop :=
  Solves decls kept c θ x fun r => GivesRow kept outer Γ [t] [r.1]

/-- The same of the parts of a destructured value. -/
def SettlesRow (decls : Declarations) (kept : Set Nat) (c : Checker) (θ : Assignment) (outer : List Scope)
    (Γ : Scope) (ts : List Ty) {α : Type} (x : CheckM (List Ty × α)) : Prop :=
  Solves decls kept c θ x fun r => GivesRow kept outer Γ ts r.1

/-- The parts of a destructured value are checked between the constructor and the tuple type. -/
theorem settles_destructured (h₀ : Begins decls kept c₀) (h : Carries decls kept c₀ θ₀ c θ)
    {place : Place} {constr : String} {cs s : Span} {α : Type}
    (row : Option Fields → CheckM (List Ty × α)) (mk : α → Pattern)
    (hplace : place.root.ty.Within kept c₀.subst)
    (ht : Exact.PlaceHas decls c₀.subst θ₀ place (.named (decls.config.tupleTypeName ts.length) ts))
    (hrow : ∀ declared c₁ θ₁, Carries decls kept c₀ θ₀ c₁ θ₁ → c₁.scopes = c.scopes →
      c₁.scopeUnder θ₁ = c.scopeUnder θ → SettlesRow decls kept c₁ θ₁ outer Γ ts (row declared)) :
    Settles decls kept c θ outer Γ (.named (decls.config.tupleTypeName ts.length) ts) (do
      let valueTy ← typeOfPlace (← Place.ofBound (some place))
      let declared ← declaredFields constr cs
      let (tys, fields) ← row declared
      return (← unifyTuple valueTy tys s, mk fields)) := by
  refine (solves_typeOfPlace h₀ h hplace ht).bind fun valueTy c₁ θ₁ h₁ hvalue => ?_
  refine (solves_declaredFields h₁.solved constr cs).bind fun declared c₂ θ₂ h₂ hs₂ => ?_
  have h₁₂ := h₁.trans h₂
  have hs : c₂.scopes = c.scopes := hs₂.trans hvalue.scopes_eq
  refine Solves.bind (hrow declared c₂ θ₂ (h.trans h₁₂) hs (h₁₂.scopeUnder_eq h.solved.regular hs))
    fun r c₃ θ₃ h₃ hr => ?_
  obtain ⟨scope, hscopes⟩ := hr.scopes_eq
  have hlength : r.1.length = ts.length := by rw [← hr.under_eq, List.length_map]
  have htuple : Gives kept (scope :: outer) (.named (decls.config.tupleTypeName ts.length) ts)
      (.named (decls.config.tupleTypeName r.1.length) r.1) c₃ θ₃ :=
    ⟨within_named.mpr hr.within, by rw [under_named, hr.under_eq, hlength], hscopes⟩
  refine Solves.bind (.bind_read (htuple.solves_unifyAt h₃.solved (hvalue.later (h₂.trans h₃)) s))
    fun ty c₄ θ₄ h₄ hty => solves_pure h₄.solved (.single hty ?_)
  exact (h₄.scopeUnder_eq h₃.solved.regular (hty.scopes_eq.trans hscopes.symm)).trans hr.scope_eq

/-- A capture gets the type that is asked for, and comes into the innermost scope with it. -/
theorem settles_captured (h : Solved decls kept c θ) {valueTy declared : Ty}
    (hvalue : valueTy.Within kept c.subst ∧ valueTy.under θ = t)
    (hd : Gives kept (scope :: outer) t declared c θ) (s : Span) (n : String) (place : Option Place) :
    Settles decls kept c θ outer ((n, t) :: c.scopeUnder θ) t (do
      let ty ← unifyAt valueTy declared s
      bindLocal n ty
      return (ty, capture s n (some ty) place)) := by
  refine (hd.solves_unifyAt h hvalue s).bind fun ty c₁ θ₁ h₁ hty => ?_
  refine (solves_bindLocal h₁.solved n hty.within hty.scopes_eq).bind fun _ c₂ θ₂ h₂ ⟨hΓ, hs₂⟩ => ?_
  obtain ⟨hwithin, hunder⟩ := hty.later h₂
  refine solves_pure h₂.solved (.single ⟨hwithin, hunder, hs₂⟩ ?_)
  rw [hΓ, hty.under_eq, h₁.scopeUnder_eq h.regular (hty.scopes_eq.trans hd.scopes_eq.symm)]

/-- The first part of a destructured value is checked before the others, which know its captures. -/
theorem settles_row {α β γ : Type} {first : CheckM (Ty × α)} {others : CheckM (List Ty × β)}
    (mk : α → β → γ) (hfirst : Settles decls kept c θ outer Γ t first)
    (hothers : ∀ c₁ θ₁ scope, Carries decls kept c θ c₁ θ₁ → c₁.scopes = scope :: outer →
      c₁.scopeUnder θ₁ = Γ → SettlesRow decls kept c₁ θ₁ outer Γ' ts others) :
    SettlesRow decls kept c θ outer Γ' (t :: ts) (do
      let (ty, a) ← first
      let (tys, b) ← others
      return (ty :: tys, mk a b)) := by
  refine Solves.bind hfirst fun r c₁ θ₁ h₁ hr => ?_
  obtain ⟨scope, hscopes⟩ := hr.scopes_eq
  refine Solves.bind (hothers c₁ θ₁ scope h₁ hscopes hr.scope_eq) fun rs c₂ θ₂ h₂ hrs => ?_
  exact solves_pure h₂.solved (hr.cons h₂ hrs)

-- The recursion is on the pattern, which says what rule a derivation ends in. Substitution and assignment
-- of the derivation stay those of the beginning, while those of the run go on.
mutual

theorem check_solves (h₀ : Begins decls kept c₀) : ∀ (p : Pattern) {c : Checker} {θ : Assignment}
    {t : Ty} {Γ : Scope} {scope : Scope}, Carries decls kept c₀ θ₀ c θ → c.scopes = scope :: outer →
    WithinAll kept p.types c₀.subst → Exact.Matches decls c₀.subst θ₀ (c.scopeUnder θ) p t Γ →
    Settles decls kept c θ outer Γ t p.check
  | .ignore s, c, θ, t, _, scope, h, hscopes, _, .ignore => by
    rw [Settles, check]
    refine (solves_fresh h.solved t).bind fun u c₁ θ₁ h₁ hu => solves_pure h₁.solved ?_
    have hΓ := h₁.scopeUnder_eq h.solved.regular hu.scopes_eq
    rw [hscopes] at hu
    exact .single hu hΓ
  | .capture s n annotation _, c, θ, t, _, scope, h, hscopes, hts, .capture hplace hann => by
    obtain ⟨hannots, hroot⟩ := withinAll_append.mp hts
    rw [Settles, check]
    refine (solves_typeOfPlace h₀ h (hroot _ (List.mem_singleton.mpr rfl)) hplace).bind
      fun valueTy c₁ θ₁ h₁ hvalue => ?_
    cases annotation with
    | none =>
      refine (solves_fresh h₁.solved t).bind fun declared c₂ θ₂ h₂ hd => ?_
      have hs₂ : c₂.scopes = c.scopes := hd.scopes_eq.trans hvalue.scopes_eq
      rw [← (h₁.trans h₂).scopeUnder_eq h.solved.regular hs₂]
      exact settles_captured h₂.solved (hvalue.later h₂) ⟨hd.within, hd.under_eq, hs₂.trans hscopes⟩ s n _
    | some ann =>
      have hwithin := hannots ann (List.mem_singleton.mpr rfl)
      have h₀₁ := h.trans h₁
      have hunder := (h₀₁.under_eq hwithin.known).trans (hann ann rfl)
      rw [← h₁.scopeUnder_eq h.solved.regular hvalue.scopes_eq]
      exact settles_captured h₁.solved ⟨hvalue.within, hvalue.under_eq⟩
        ⟨h₀₁.leads.within hwithin, hunder, hvalue.scopes_eq.trans hscopes⟩ s n _
  | .equal s e _, c, θ, t, _, scope, h, hscopes, hts, .equal hplace hexpects => by
    rw [Settles, check]
    refine (solves_typeOfPlace h₀ h (hts _ (List.mem_singleton.mpr rfl)) hplace).bind
      fun valueTy c₁ θ₁ h₁ hvalue => ?_
    have hΓ := h₁.scopeUnder_eq h.solved.regular hvalue.scopes_eq
    rw [← hΓ] at hexpects
    refine (solves_expectedTy h₀ (h.trans h₁) hexpects valueTy s).bind fun expected c₂ θ₂ h₂ he => ?_
    refine (he.solves_unifyAt h₂.solved (hvalue.later h₂) s).bind fun ty c₃ θ₃ h₃ hty => ?_
    have hs₃ : c₃.scopes = c.scopes := hty.scopes_eq.trans hvalue.scopes_eq
    refine solves_pure h₃.solved (.single ⟨hty.within, hty.under_eq, hs₃.trans hscopes⟩ ?_)
    exact (h₁.trans (h₂.trans h₃)).scopeUnder_eq h.solved.regular hs₃
  | .record s constr cs fields _, c, θ, _, _, scope, h, hscopes, hts, .record hplace hrow => by
    obtain ⟨hroot, hfields⟩ := withinAll_append.mp hts
    have hlength := hrow.length_eq
    rw [List.length_map] at hlength
    rw [← hlength] at hplace ⊢
    rw [check]
    refine settles_destructured h₀ h (checkFields · fields) (.record s constr cs · _)
      (hroot _ (List.mem_singleton.mpr rfl)) hplace fun declared c₁ θ₁ h₁ hs hΓ => ?_
    rw [← hΓ] at hrow
    exact checkFields_solves h₀ declared fields h₁ (hs.trans hscopes) hfields hrow
  | .tuple s constr cs fields _, c, θ, _, _, scope, h, hscopes, hts, .tuple hplace hrow => by
    obtain ⟨hroot, hfields⟩ := withinAll_append.mp hts
    rw [← hrow.length_eq] at hplace ⊢
    rw [check]
    refine settles_destructured h₀ h (checkPositions · fields) (.tuple s constr cs · _)
      (hroot _ (List.mem_singleton.mpr rfl)) hplace fun declared c₁ θ₁ h₁ hs hΓ => ?_
    rw [← hΓ] at hrow
    exact checkPositions_solves h₀ declared fields h₁ (hs.trans hscopes) hfields hrow

theorem checkFields_solves (h₀ : Begins decls kept c₀) : ∀ (declared : Option Fields)
    (fs : List FieldPattern) {c : Checker} {θ : Assignment} {ts : List Ty} {Γ : Scope} {scope : Scope},
    Carries decls kept c₀ θ₀ c θ → c.scopes = scope :: outer → WithinAll kept (fieldTypes fs) c₀.subst →
    Exact.RowMatches decls c₀.subst θ₀ (c.scopeUnder θ) (fs.map (·.pattern)) ts Γ →
    SettlesRow decls kept c θ outer Γ ts (checkFields declared fs)
  | _, [], c, θ, _, _, scope, h, hscopes, _, .nil =>
    solves_pure h.solved ⟨List.forall_mem_nil _, rfl, rfl, scope, hscopes⟩
  | declared, ⟨n, ns, p⟩ :: fs, c, θ, _, _, scope, h, hscopes, hts, .cons hp hfs => by
    obtain ⟨hpts, hfts⟩ := withinAll_append.mp hts
    rw [SettlesRow, checkFields]
    refine (solves_checkField h.solved declared n ns).bind fun _ c₁ θ₁ h₁ hs₁ => ?_
    rw [← h₁.scopeUnder_eq h.solved.regular hs₁] at hp
    have h₀₁ := h.trans h₁
    refine settles_row (fun q gs => FieldPattern.mk n ns q :: gs)
      (check_solves h₀ p h₀₁ (hs₁.trans hscopes) hpts hp)
      fun c₂ θ₂ scope' h₂ hscopes' hΓ => ?_
    rw [← hΓ] at hfs
    exact checkFields_solves h₀ declared fs (h₀₁.trans h₂) hscopes' hfts hfs

theorem checkPositions_solves (h₀ : Begins decls kept c₀) : ∀ (declared : Option Fields)
    (ps : List Pattern) {c : Checker} {θ : Assignment} {ts : List Ty} {Γ : Scope} {scope : Scope},
    Carries decls kept c₀ θ₀ c θ → c.scopes = scope :: outer → WithinAll kept (typesAll ps) c₀.subst →
    Exact.RowMatches decls c₀.subst θ₀ (c.scopeUnder θ) ps ts Γ →
    SettlesRow decls kept c θ outer Γ ts (checkPositions declared ps)
  | _, [], c, θ, _, _, scope, h, hscopes, _, .nil =>
    solves_pure h.solved ⟨List.forall_mem_nil _, rfl, rfl, scope, hscopes⟩
  | declared, p :: ps, c, θ, t :: ts, Γ, scope, h, hscopes, hts, .cons hp hps => by
    obtain ⟨hpts, hpsts⟩ := withinAll_append.mp hts
    rw [checkPositions]
    cases p.place?.bind Place.fieldName? with
    | none =>
      refine settles_row (· :: ·) (check_solves h₀ p h hscopes hpts hp)
        fun c₁ θ₁ scope' h₁ hscopes' hΓ => ?_
      rw [← hΓ] at hps
      exact checkPositions_solves h₀ declared ps (h.trans h₁) hscopes' hpsts hps
    | some n =>
      refine (solves_checkField h.solved declared n p.span).bind fun _ c₁ θ₁ h₁ hs₁ => ?_
      rw [← h₁.scopeUnder_eq h.solved.regular hs₁] at hp
      have h₀₁ := h.trans h₁
      refine settles_row (· :: ·) (check_solves h₀ p h₀₁ (hs₁.trans hscopes) hpts hp)
        fun c₂ θ₂ scope' h₂ hscopes' hΓ => ?_
      rw [← hΓ] at hps
      exact checkPositions_solves h₀ declared ps (h₀₁.trans h₂) hscopes' hpsts hps

end

theorem checkAll_solves (h₀ : Begins decls kept c₀) : ∀ (ps : List Pattern) {c : Checker} {θ : Assignment}
    {ts : List Ty} {Γ : Scope} {scope : Scope}, Carries decls kept c₀ θ₀ c θ → c.scopes = scope :: outer →
    WithinAll kept (typesAll ps) c₀.subst →
    Exact.RowMatches decls c₀.subst θ₀ (c.scopeUnder θ) ps ts Γ →
    Solves decls kept c θ (checkAll ps) fun _ c' θ' =>
      c'.scopeUnder θ' = Γ ∧ ∃ scope, c'.scopes = scope :: outer
  | [], c, θ, _, _, scope, h, hscopes, _, .nil => solves_pure h.solved ⟨rfl, scope, hscopes⟩
  | p :: ps, c, θ, _, _, scope, h, hscopes, hts, .cons hp hps => by
    obtain ⟨hpts, hpsts⟩ := withinAll_append.mp hts
    rw [checkAll]
    refine Solves.bind (check_solves h₀ p h hscopes hpts hp) fun r c₁ θ₁ h₁ hr => ?_
    obtain ⟨scope', hscopes'⟩ := hr.scopes_eq
    rw [← hr.scope_eq] at hps
    refine (checkAll_solves h₀ ps (h.trans h₁) hscopes' hpsts hps).bind fun _ c₂ θ₂ h₂ hrs => ?_
    exact solves_pure h₂.solved hrs

end Pattern

/-! ## Expressions and matchers -/

/-- An expression of this type is found to have it. -/
def Expr.Finds (decls : Declarations) (kept : Set Nat) (c : Checker) (θ : Assignment) (e : Expr)
    (t : Ty) : Prop :=
  Solves decls kept c θ e.infer (Gives kept c.scopes t)

/-- The type that is found is unified with a known one that stands for the same. -/
theorem Expr.Finds.bind_unifyAt {e : Expr} (he : e.Finds decls kept c θ t) {u : Ty}
    (hu : u.Within kept c.subst) (hunder : u.under θ = t) (s : Span) {β : Type} {f : Ty → CheckM β}
    {Q : β → Checker → Assignment → Prop}
    (hf : ∀ r c' θ', Carries decls kept c θ c' θ' → Gives kept c.scopes t r c' θ' →
      Solves decls kept c' θ' (f r) Q) :
    Solves decls kept c θ (do
      let r ← e.infer
      f (← Checker.unifyAt u r s)) Q := by
  refine Solves.bind he fun r c₁ θ₁ h₁ hr => ?_
  have hlater := And.intro (h₁.leads.within hu) ((h₁.under_eq hu.known).trans hunder)
  exact (hr.solves_unifyAt h₁.solved hlater s).bind fun x c₂ θ₂ h₂ => hf x c₂ θ₂ (h₁.trans h₂)

/-- A field of a value made by a constructor that declares it has an instance of its type. The checker
may not know the constructor yet, and then it lets the field have any type. -/
theorem Expr.Finds.access (h₀ : Begins decls kept c₀) (h : Carries decls kept c₀ θ₀ c θ) {value : Expr}
    {u : Ty} (hvalue : value.Finds decls kept c θ u) {f : String} (s fs : Span)
    (hfield : ∀ constr ts, u = .named constr ts → ∀ signature ∈ decls.env.field? constr f,
      c₀.subst.IsInstance signature t) :
    (Expr.access s value f fs).Finds decls kept c θ t := by
  rw [Expr.Finds, Expr.infer]
  refine Solves.bind hvalue fun valueTy c₁ θ₁ h₁ hv => .bind_read (.bind_get ?_)
  rw [← hv.scopes_eq]
  have hunder := h₁.solved.solves.under_chase h₁.solved.regular.valid hv.within.known
  rw [hv.under_eq] at hunder
  cases hchase : c₁.subst.chase valueTy with
  | named constr ts =>
    rw [hchase, under_named] at hunder
    exact solves_instantiateOrFresh h₀ (h.trans h₁) fun signature hsignature =>
      ⟨.of_field? hsignature, hfield constr _ hunder.symm signature hsignature⟩
  | var v => exact solves_fresh h₁.solved t
  | fn d e => exact solves_fresh h₁.solved t

/-- The body of a clause is checked with the captures of its patterns, which are out of scope behind it. -/
theorem Matcher.solves_clause (h₀ : Begins decls kept c₀) (h : Carries decls kept c₀ θ₀ c θ)
    {patterns : List Pattern} {body : Expr} {result : Ty} {ts : List Ty}
    (hpatterns : WithinAll kept (Pattern.typesAll patterns) c₀.subst)
    (hrow : Exact.RowMatches decls c₀.subst θ₀ (c.scopeUnder θ) patterns ts Γ)
    (hresult : result.Within kept c₀.subst)
    (hbody : ∀ c₁ θ₁, Carries decls kept c₀ θ₀ c₁ θ₁ → c₁.scopeUnder θ₁ = Γ →
      body.Finds decls kept c₁ θ₁ (result.under θ₀)) :
    Solves decls kept c θ (withScope do
      let patterns ← Pattern.checkAll patterns
      let bodyTy ← body.infer
      let _ ← unifyAt result bodyTy body.span
      return patterns) fun _ c' _ => c'.scopes = c.scopes := by
  refine solves_withScope ?_
  have h₁ := h.opened
  refine (Pattern.checkAll_solves h₀ patterns h₁ rfl hpatterns hrow).bind
    fun _ c₂ θ₂ h₂ ⟨hΓ, scope, hs₂⟩ => ?_
  have h₀₂ := h₁.trans h₂
  refine (hbody c₂ θ₂ h₀₂ hΓ).bind_unifyAt (h₀₂.leads.within hresult) (h₀₂.under_eq hresult.known) _
    fun _ c₃ θ₃ h₃ hgives => solves_pure h₃.solved ?_
  rw [closed, hgives.scopes_eq, hs₂]
  rfl

mutual

theorem Expr.infer_solves (h₀ : Begins decls kept c₀) : ∀ (e : Expr) {c : Checker} {θ : Assignment}
    {t : Ty}, Carries decls kept c₀ θ₀ c θ → WithinAll kept e.types c₀.subst →
    Exact.HasType decls c₀.subst θ₀ (c.scopeUnder θ) e t → e.Finds decls kept c θ t
  | .literal _ l, c, θ, _, h, _, .literal =>
    solves_pure h.solved ⟨within_named.mpr (List.forall_mem_nil _), rfl, rfl⟩
  | .name s n, c, θ, t, h, _, .name hn => by
    rw [Expr.Finds, Expr.infer]
    exact solves_lookup h₀ h hn s _
  | .call _ callee args, c, θ, u, h, hts, .call hcallee happ => by
    obtain ⟨hcalleets, hargs⟩ := withinAll_append.mp hts
    rw [Expr.Finds, Expr.infer]
    refine Solves.bind (Expr.infer_solves h₀ callee h hcalleets hcallee) fun calleeTy c₁ θ₁ h₁ ht => ?_
    rw [← h₁.scopeUnder_eq h.solved.regular ht.scopes_eq] at happ
    exact Expr.inferCall_solves h₀ args (h.trans h₁) hargs ht happ
  | .cond _ cond x y, c, θ, t, h, hts, .cond hcond hx hy => by
    obtain ⟨hts, hyts⟩ := withinAll_append.mp hts
    obtain ⟨hcondts, hxts⟩ := withinAll_append.mp hts
    rw [Expr.Finds, Expr.infer]
    have hbool : (Ty.constant "Bool").Within kept c.subst := within_named.mpr (List.forall_mem_nil _)
    refine (Expr.infer_solves h₀ cond h hcondts hcond).bind_unifyAt hbool rfl _ fun _ c₁ θ₁ h₁ hb => ?_
    rw [← h₁.scopeUnder_eq h.solved.regular hb.scopes_eq] at hx hy
    refine Solves.bind (Expr.infer_solves h₀ x (h.trans h₁) hxts hx) fun thenTy c₂ θ₂ h₂ ht => ?_
    rw [← h₂.scopeUnder_eq h₁.solved.regular ht.scopes_eq] at hy
    refine Solves.bind (Expr.infer_solves h₀ y ((h.trans h₁).trans h₂) hyts hy)
      fun elseTy c₃ θ₃ h₃ he => ?_
    rw [← hb.scopes_eq, ← ht.scopes_eq]
    exact he.solves_unifyAt h₃.solved (ht.later h₃) _
  | .letIn _ n _ value body, c, θ, t, h, hts, .letIn hvalue hbody => by
    obtain ⟨hvaluets, hbodyts⟩ := withinAll_append.mp hts
    rw [Expr.Finds, Expr.infer]
    refine Solves.bind (Expr.infer_solves h₀ value h hvaluets hvalue) fun valueTy c₁ θ₁ h₁ hv => ?_
    have h₀₁ := (h.trans h₁).opened
    refine solves_withScope ((solves_bindLocal h₀₁.solved n hv.within rfl).bind
      fun _ c₂ θ₂ h₂ ⟨hΓ, hs₂⟩ => ?_)
    have hΓ₁ : c₁.opened.scopeUnder θ₁ = c.scopeUnder θ :=
      h₁.scopeUnder_eq h.solved.regular hv.scopes_eq
    rw [hv.under_eq, hΓ₁] at hΓ
    rw [← hΓ] at hbody
    refine Solves.imp (Expr.infer_solves h₀ body (h₀₁.trans h₂) hbodyts hbody) fun r c₃ θ₃ _ hr => ?_
    refine ⟨hr.within, hr.under_eq, ?_⟩
    rw [closed, hr.scopes_eq, hs₂]
    exact hv.scopes_eq
  | .access s value f fs, c, θ, t, h, hts, .access hvalue hfield hinst => by
    rw [Expr.types] at hts
    refine (Expr.infer_solves h₀ value h hts hvalue).access h₀ h s fs fun constr ts hu signature hs => ?_
    cases hu
    cases hfield.symm.trans hs
    exact hinst
  | .access s value f fs, c, θ, t, h, hts, .openAccess hvalue hnone => by
    rw [Expr.types] at hts
    refine (Expr.infer_solves h₀ value h hts hvalue).access h₀ h s fs fun constr ts hu signature hs => ?_
    cases (hnone constr ts hu).symm.trans hs
  | .matching s scrutinees ⟨name, ns, params, result, clauses⟩, c, θ, _, h, hts,
      .matching hscrutinized hclauses => by
    obtain ⟨hscrutinees, hts⟩ := withinAll_append.mp hts
    obtain ⟨hparams, hts⟩ := withinAll_append.mp hts
    obtain ⟨hresult, hcs⟩ := withinAll_cons.mp hts
    rw [Expr.Finds, Expr.infer, if_neg (not_not_intro hscrutinized.length_eq)]
    refine (Expr.inferScrutinees_solves h₀ scrutinees h hscrutinees hparams hscrutinized).bind
      fun _ c₁ θ₁ h₁ hs₁ => ?_
    rw [← h₁.scopeUnder_eq h.solved.regular hs₁] at hclauses
    refine (Matcher.checkClauses_solves h₀ clauses (h.trans h₁) hresult hcs hclauses).bind
      fun _ c₂ θ₂ h₂ hs₂ => ?_
    have h₀₂ := (h.trans h₁).trans h₂
    exact solves_pure h₂.solved ⟨h₀₂.leads.within hresult, h₀₂.under_eq hresult.known, hs₂.trans hs₁⟩

theorem Expr.inferCall_solves (h₀ : Begins decls kept c₀) : ∀ (args : List Expr) {calleeTy : Ty}
    {c : Checker} {θ : Assignment} {t u : Ty} {scopes : List Scope}, Carries decls kept c₀ θ₀ c θ →
    WithinAll kept (Expr.typesAll args) c₀.subst → Gives kept scopes t calleeTy c θ →
    Exact.Applies decls c₀.subst θ₀ (c.scopeUnder θ) t args u →
    Solves decls kept c θ (Expr.inferCall calleeTy args) (Gives kept scopes u)
  | [], calleeTy, c, θ, _, _, _, h, _, ht, .nil => solves_pure h.solved ht
  | arg :: args, calleeTy, c, θ, .fn d codomain, u, scopes, h, hts, ht, .cons harg happ => by
    obtain ⟨hargts, hargsts⟩ := withinAll_append.mp hts
    rw [Expr.inferCall]
    refine Solves.bind (Expr.infer_solves h₀ arg h hargts harg) fun argTy c₁ θ₁ h₁ hargTy => ?_
    refine (solves_fresh h₁.solved codomain).bind fun resultTy c₂ θ₂ h₂ hresult => ?_
    have h₁₂ := h₁.trans h₂
    obtain ⟨hargwithin, hargunder⟩ := hargTy.later h₂
    obtain ⟨hwithin, hunder⟩ := ht.later h₁₂
    refine (solves_unifyAt h₂.solved (within_fn.mpr ⟨hargwithin, hresult.within⟩) hwithin ?_ _).bind
      fun _ c₃ θ₃ h₃ hfn => ?_
    · rw [under_fn, hargunder, hresult.under_eq, hunder]
    obtain ⟨hwithin', hunder'⟩ := hresult.later h₃
    have hs₃ : c₃.scopes = c.scopes := hfn.scopes_eq.trans (hresult.scopes_eq.trans hargTy.scopes_eq)
    rw [← (h₁₂.trans h₃).scopeUnder_eq h.solved.regular hs₃] at happ
    exact Expr.inferCall_solves h₀ args (h.trans (h₁₂.trans h₃)) hargsts
      ⟨hwithin', hunder', hs₃.trans ht.scopes_eq⟩ happ

theorem Expr.inferScrutinees_solves (h₀ : Begins decls kept c₀) : ∀ (es : List Expr)
    {params : List Argument} {c : Checker} {θ : Assignment}, Carries decls kept c₀ θ₀ c θ →
    WithinAll kept (Expr.typesAll es) c₀.subst → WithinAll kept (params.map (·.ty)) c₀.subst →
    Exact.Scrutinized decls c₀.subst θ₀ (c.scopeUnder θ) es params →
    Solves decls kept c θ (Expr.inferScrutinees es params) fun _ c' _ => c'.scopes = c.scopes
  | [], _, c, θ, h, _, _, .nil => solves_pure h.solved rfl
  | e :: es, param :: params, c, θ, h, hts, hparams, .cons he hes => by
    obtain ⟨hets, hests⟩ := withinAll_append.mp hts
    obtain ⟨hparam, hparams⟩ := withinAll_cons.mp hparams
    rw [Expr.inferScrutinees]
    refine (Expr.infer_solves h₀ e h hets he).bind_unifyAt (h.leads.within hparam)
      (h.under_eq hparam.known) _ fun _ c₁ θ₁ h₁ hgives => ?_
    rw [← h₁.scopeUnder_eq h.solved.regular hgives.scopes_eq] at hes
    exact (Expr.inferScrutinees_solves h₀ es (h.trans h₁) hests hparams hes).imp
      fun _ _ _ _ hs => hs.trans hgives.scopes_eq

theorem Matcher.checkClauses_solves (h₀ : Begins decls kept c₀) : ∀ (cs : List Clause) {result : Ty}
    {c : Checker} {θ : Assignment}, Carries decls kept c₀ θ₀ c θ → result.Within kept c₀.subst →
    WithinAll kept (Matcher.clauseTypes cs) c₀.subst →
    Exact.ClausesTyped decls c₀.subst θ₀ (c.scopeUnder θ) result cs →
    Solves decls kept c θ (Matcher.checkClauses result cs) fun _ c' _ => c'.scopes = c.scopes
  | [], result, c, θ, h, _, _, .nil => solves_pure h.solved rfl
  | ⟨s, patterns, body⟩ :: cs, result, c, θ, h, hresult, hts, .cons hrow hbody hcs => by
    obtain ⟨hts, hcsts⟩ := withinAll_append.mp hts
    obtain ⟨hpatterns, hbodyts⟩ := withinAll_append.mp hts
    rw [Matcher.checkClauses]
    refine (Matcher.solves_clause h₀ h hpatterns hrow hresult fun c₁ θ₁ h₁ hΓ => ?_).bind
      fun _ c₁ θ₁ h₁ hs₁ => ?_
    · rw [← hΓ] at hbody
      exact Expr.infer_solves h₀ body h₁ hbodyts hbody
    · rw [← h₁.scopeUnder_eq h.solved.regular hs₁] at hcs
      refine (Matcher.checkClauses_solves h₀ cs (h.trans h₁) hresult hcsts hcs).bind
        fun _ c₂ θ₂ h₂ hs₂ => ?_
      exact solves_pure h₂.solved (hs₂.trans hs₁)

end

/-- The assignment goes with what is known by now, and with it the matcher has a type by the exact rules. -/
structure Matcher.TypedBy (decls : Declarations) (c : Checker) (m : Matcher) (θ : Assignment) : Prop where
  solves : c.subst.SolvedBy θ
  typed : Exact.MatcherTyped decls c.subst θ (c.scopeUnder θ) m

/-- The clauses of a matcher know its name, with one type for all uses. -/
theorem Matcher.solves_scope {m : Matcher} (h₀ : Begins decls kept c₀)
    (hts : WithinAll kept m.types c₀.subst) (hm : m.TypedBy decls c₀ θ₀) (h : Carries decls kept c₀ θ₀ c θ)
    (hs : c.scopes = c₀.scopes) :
    Solves decls kept c θ (withScope do
      bindLocal m.name m.fnTy
      Matcher.checkClauses m.result m.clauses) fun _ _ _ => True := by
  have hfn := Matcher.within_fnTy hts
  refine solves_withScope ((solves_bindLocal h.opened.solved m.name (h.leads.within hfn) rfl).bind
    fun _ c₁ θ₁ h₁ ⟨hΓ, _⟩ => ?_)
  have hΓ₀ : c.opened.scopeUnder θ = c₀.scopeUnder θ₀ := h.scopeUnder_eq h₀.regular hs
  have hclauses := hm.typed.clauses
  rw [← h.under_eq hfn.known, ← hΓ₀, ← hΓ] at hclauses
  obtain ⟨_, _, params, result, clauses⟩ := m
  obtain ⟨hresult, hcs⟩ := withinAll_cons.mp (withinAll_append.mp hts).2
  exact (Matcher.checkClauses_solves h₀ clauses (h.opened.trans h₁) hresult hcs hclauses).imp
    fun _ _ _ _ _ => trivial

/-- What comes behind the signature of a matcher. -/
theorem Matcher.solves_clauses {m : Matcher} (h₀ : Begins decls kept c₀)
    (hts : WithinAll kept m.types c₀.subst) (hm : m.TypedBy decls c₀ θ₀) (h : Carries decls kept c₀ θ₀ c θ)
    (hs : c.scopes = c₀.scopes) :
    Solves decls kept c θ (do
      let clauses ← withScope do
        bindLocal m.name m.fnTy
        Matcher.checkClauses m.result m.clauses
      return ((← get).subst.resolve m.fnTy, { m with clauses := clauses }))
      fun r _ θ' => r.1.under θ' = m.fnTy.under θ₀ := by
  have hfn := Matcher.within_fnTy hts
  refine (Matcher.solves_scope h₀ hts hm h hs).bind fun clauses c₁ θ₁ h₁ _ =>
    .bind_get (solves_pure h₁.solved ?_)
  have h₀₁ := h.trans h₁
  have hunder := h₁.solved.solves.under_resolve h₁.solved.regular.valid (h₀₁.leads.within hfn).known
  exact hunder.trans (h₀₁.under_eq hfn.known)

/-- The checker finds the type of a matcher, or one that is more general. -/
theorem Matcher.check_solves {m : Matcher} (h₀ : Begins decls kept c)
    (hts : WithinAll kept m.types c.subst) (hm : m.TypedBy decls c θ) :
    Solves decls kept c θ m.check fun r _ θ' => r.1.under θ' = m.fnTy.under θ := by
  have hsolved : Solved decls kept c θ := ⟨h₀.regular, hm.solves⟩
  have hfn := Matcher.within_fnTy hts
  rw [Matcher.check]
  refine .bind_read ?_
  cases hglobal : decls.env.global? m.name with
  | none => exact Matcher.solves_clauses h₀ hts hm (.refl hsolved) rfl
  | some signature =>
    have hinst := hm.typed.signature signature hglobal
    refine (solves_declared h₀ (.refl hsolved) (.global hglobal) hinst).bind
      fun copy c₁ θ₁ h₁ hcopy => ?_
    have hgives : Gives kept c.scopes (m.fnTy.under θ) m.fnTy c₁ θ₁ :=
      ⟨h₁.leads.within hfn, h₁.under_eq hfn.known, hcopy.scopes_eq⟩
    exact (hgives.solves_unifyAt h₁.solved ⟨hcopy.within, hcopy.under_eq⟩ _).bind
      fun _ c₂ θ₂ h₂ hty => Matcher.solves_clauses h₀ hts hm (h₁.trans h₂) hty.scopes_eq

end Clausal
