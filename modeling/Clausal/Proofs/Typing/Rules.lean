import Clausal.Matcher.Basic
import Clausal.Proofs.Unification.Soundness
import Clausal.Typing.Checker

/-!
# Typing rules

What it means for patterns, expressions and matchers to have a type, apart from how the type is found.
Types count as equal if their skeletons are, at the moment when they have to be and under everything
that is learned later.

Signatures make moments part of a judgment: a use of a global has an instance of its signature as that
is resolved when the global is looked up, while what is learned later about variables of the signature
does not touch the instance. So a judgment has the moment at which its first name is looked up, and the
moment by which all types that have to be equal are so. Moments come in the order in which the parts of a
program are checked.
-/
namespace Clausal

namespace Substitution

/-- From this moment on, the types have one skeleton. -/
def Same (s : Substitution) (t u : Ty) : Prop :=
  ∀ s', Evolves s s' → s'.skeleton t = s'.skeleton u

variable {s s' : Substitution} {t u : Ty}

theorem Same.refl (s : Substitution) (t : Ty) : s.Same t t :=
  fun _ _ => rfl

theorem Same.symm (h : s.Same t u) : s.Same u t :=
  fun s' hs' => (h s' hs').symm

theorem Same.trans {x : Ty} (h : s.Same t u) (h' : s.Same u x) : s.Same t x :=
  fun s' hs' => (h s' hs').trans (h' s' hs')

theorem Same.later (h : s.Same t u) (hs' : Evolves s s') : s'.Same t u :=
  fun s'' hs'' => h s'' (hs'.trans hs'')

/-- Skeletons that are equal stay equal. -/
theorem Valid.same (hs : s.Valid) (ht : t.Over s) (hu : u.Over s) (h : s.skeleton t = s.skeleton u) :
    s.Same t u :=
  fun _ hs' => (hs'.spec hs).2.skeleton_eq hs (hs'.valid hs) ht hu h

theorem Valid.same_chase (hs : s.Valid) (ht : t.Over s) : s.Same (s.chase t) t := by
  cases t with
  | named constr ts => exact .refl s _
  | fn d c => exact .refl s _
  | var v =>
    rw [chase]
    cases h : s.lookup v with
    | some bound => exact hs.same (hs.bound_over v bound h) ht (hs.skeleton_of_bound h).symm
    | none =>
      refine hs.same (over_var.mpr (hs.has_root (over_var.mp ht))) ht ?_
      rw [Option.getD_none, skeleton, hs.resolve_root, skeleton]

/-- A type with the skeleton of a constructor is known to be made by it. -/
theorem Valid.chase_of_skeleton (hs : s.Valid) {constr : String} (h : s.skeleton t = .constant constr) :
    ∃ ts, s.chase t = .named constr ts := by
  have hmade {u : Ty} (hnv : ∀ w, u ≠ .var w) (hu : s.skeleton u = .constant constr) :
      ∃ ts, u = .named constr ts := by
    cases u with
    | var w => exact absurd rfl (hnv w)
    | named constr' ts =>
      rw [skeleton_named] at hu
      cases hu
      exact ⟨ts, rfl⟩
    | fn d c =>
      rw [skeleton_fn] at hu
      cases hu
  cases t with
  | named constr' ts => exact hmade nofun h
  | fn d c => exact hmade nofun h
  | var v =>
    rw [chase]
    cases hv : s.lookup v with
    | some bound => exact hmade (hs.bound_not_var v bound hv) ((hs.skeleton_of_bound hv).symm.trans h)
    | none =>
      rw [skeleton, resolve_var_of_unbound hv] at h
      cases h

/-- Resolving early makes no difference. -/
theorem Valid.same_resolve (hs : s.Valid) (ht : t.Over s) : s.Same (s.resolve t) t := by
  intro s' hs'
  rw [skeleton, (hs'.spec hs).2.resolve_resolve hs (hs'.valid hs) ht, skeleton]

/-- The type is a copy of the signature for one use, with any types in the place of the variables that are
left when the signature is resolved. -/
def IsInstance (s : Substitution) (signature t : Ty) : Prop :=
  ∃ f, t = (s.resolve signature).bindVars f

/-- Whatever is learned, what a copy of a signature comes to is an instance of the signature. -/
theorem IsInstance.exists_skeleton_eq {signature : Ty} (h : s.IsInstance signature t)
    (s' : Substitution) : ∃ f, s'.skeleton t = (s.skeleton signature).bindVars f := by
  obtain ⟨f, rfl⟩ := h
  refine ⟨fun v => (s'.resolve (f v)).erased, ?_⟩
  rw [skeleton, resolve_eq_bindVars, Ty.bindVars_bindVars, Ty.erased_bindVars, skeleton]
  refine Ty.bindVars_congr fun v _ => ?_
  rw [resolve_eq_bindVars (f v)]

end Substitution

open Substitution

/-- The name is a local with this type, or no local but a global with this instance of its signature. -/
inductive NameHas (decls : Declarations) (Γ : Scope) (s : Substitution) (n : String) (t : Ty) : Prop where
  | local : Γ.lookup n = some t → NameHas decls Γ s n t
  | global {signature} : Γ.lookup n = none → decls.env.global? n = some signature →
      s.IsInstance signature t → NameHas decls Γ s n t

/-- The value at a place has this type. A field that is not declared may have any type. -/
inductive PlaceHas (decls : Declarations) : Substitution → Place → Ty → Substitution → Prop where
  | argument {s arg tag} : PlaceHas decls s (.argument arg tag) arg.ty s
  | field {s parent n tag signature t} :
      parent.tag?.bind (decls.env.field? · n) = some signature → s.IsInstance signature t →
      PlaceHas decls s (.field parent n tag) t s
  | openField {s parent n tag t} : parent.tag?.bind (decls.env.field? · n) = none →
      PlaceHas decls s (.field parent n tag) t s
  | later {s s' s'' place t u} : PlaceHas decls s place t s' → Evolves s' s'' → s''.Same t u →
      PlaceHas decls s place u s''

/-- A literal or a name has this type. -/
inductive Expects (decls : Declarations) (Γ : Scope) (s : Substitution) : Expected → Ty → Prop where
  | literal {l} : Expects decls Γ s (.literal l) (Checker.literalTy l)
  | name {n t} : NameHas decls Γ s n t → Expects decls Γ s (.name n) t

/-- A constructor may be destructured: it is declared, unless the settings do not ask for it. -/
def Known (decls : Declarations) (constr : String) : Prop :=
  decls.config.reportUndeclaredConstrs → (decls.env.constr? constr).isSome

/-- A field that is looked at, if any, is one of those that are declared, if any are. -/
def Listed (declared : Option Fields) (field? : Option String) : Prop :=
  ∀ fields ∈ declared, ∀ n ∈ field?, (fields.lookup n).isSome

/-- A part of a destructured value: the field that is looked at, and its pattern. -/
abbrev Part := Option String × Pattern

def FieldPattern.part (f : FieldPattern) : Part :=
  (some f.name, f.pattern)

/-- A part by position is looked at under the name that its pattern projects. -/
def Pattern.part (p : Pattern) : Part :=
  (p.place?.bind Place.fieldName?, p)

mutual

/-- A pattern matches a value of this type. Behind it, the locals are those of the second scope. -/
inductive Matches (decls : Declarations) :
    Scope → Substitution → Pattern → Ty → Substitution → Scope → Prop where
  | ignore {Γ s sp t} : Matches decls Γ s (.ignore sp) t s Γ
  | capture {Γ s s' sp n annotation place t} : PlaceHas decls s place t s' →
      (∀ u ∈ annotation, s'.Same u t) →
      Matches decls Γ s (.capture sp n annotation (some place)) t s' ((n, t) :: Γ)
  | equal {Γ s s' s'' sp e place t u} : PlaceHas decls s place t s' → Expects decls Γ s' e u →
      Evolves s' s'' → s''.Same t u →
      Matches decls Γ s (.equal sp e (some place)) t s'' Γ
  | record {Γ Γ' s s₁ s₂ s₃ sp constr cs fields place t ts} : PlaceHas decls s place t s₁ →
      Known decls constr →
      RowMatches decls (decls.env.constr? constr) Γ s₁ (fields.map FieldPattern.part) ts s₂ Γ' →
      Evolves s₂ s₃ → s₃.Same t (.named (decls.config.tupleTypeName fields.length) ts) →
      Matches decls Γ s (.record sp constr cs fields (some place)) t s₃ Γ'
  | tuple {Γ Γ' s s₁ s₂ s₃ sp constr cs fields place t ts} : PlaceHas decls s place t s₁ →
      Known decls constr →
      RowMatches decls (decls.env.constr? constr) Γ s₁ (fields.map Pattern.part) ts s₂ Γ' →
      Evolves s₂ s₃ → s₃.Same t (.named (decls.config.tupleTypeName fields.length) ts) →
      Matches decls Γ s (.tuple sp constr cs fields (some place)) t s₃ Γ'
  | later {Γ Γ' s s' s'' p t u} : Matches decls Γ s p t s' Γ' → Evolves s' s'' → s''.Same t u →
      Matches decls Γ s p u s'' Γ'

/-- Patterns match values of these types, each with the locals of those before it. -/
inductive RowMatches (decls : Declarations) : Option Fields →
    Scope → Substitution → List Part → List Ty → Substitution → Scope → Prop where
  | nil {declared Γ s} : RowMatches decls declared Γ s [] [] s Γ
  | cons {declared Γ Γ' Γ'' s s' s'' field? p t parts ts} : Listed declared field? →
      Matches decls Γ s p t s' Γ' → RowMatches decls declared Γ' s' parts ts s'' Γ'' →
      RowMatches decls declared Γ s ((field?, p) :: parts) (t :: ts) s'' Γ''

end

mutual

/-- An expression has this type. -/
inductive HasType (decls : Declarations) : Scope → Substitution → Expr → Ty → Substitution → Prop where
  | literal {Γ s sp l} : HasType decls Γ s (.literal sp l) (Checker.literalTy l) s
  | name {Γ s sp n t} : NameHas decls Γ s n t → HasType decls Γ s (.name sp n) t s
  | call {Γ s s' s'' sp callee args t u} : HasType decls Γ s callee t s' →
      Applies decls Γ s' t args u s'' → HasType decls Γ s (.call sp callee args) u s''
  | cond {Γ s s₁ s₂ s₃ sp c x y t} : HasType decls Γ s c (.constant "Bool") s₁ →
      HasType decls Γ s₁ x t s₂ → HasType decls Γ s₂ y t s₃ →
      HasType decls Γ s (.cond sp c x y) t s₃
  /-- A name bound by `let` has one type for all its uses. -/
  | letIn {Γ s s' s'' sp n ns value body t u} : HasType decls Γ s value u s' →
      HasType decls ((n, u) :: Γ) s' body t s'' →
      HasType decls Γ s (.letIn sp n ns value body) t s''
  /-- A value of a type named as a constructor has the fields of that constructor. -/
  | access {Γ s s' sp value f fs constr ts signature t} :
      HasType decls Γ s value (.named constr ts) s' →
      decls.env.field? constr f = some signature → s'.IsInstance signature t →
      HasType decls Γ s (.access sp value f fs) t s'
  /-- A field may have any type if the value is not known to have it by then. -/
  | openAccess {Γ s s' sp value f fs t u} : HasType decls Γ s value u s' →
      (∀ constr, s'.skeleton u = .constant constr → decls.env.field? constr f = none) →
      HasType decls Γ s (.access sp value f fs) t s'
  | matching {Γ s s' s'' sp scrutinees m} :
      Scrutinized decls Γ s scrutinees m.params s' →
      ClausesTyped decls Γ s' m.result m.clauses s'' →
      HasType decls Γ s (.matching sp scrutinees m) m.result s''
  | later {Γ s s' s'' e t u} : HasType decls Γ s e t s' → Evolves s' s'' → s''.Same t u →
      HasType decls Γ s e u s''

/-- What has the first type can be applied to the arguments one at a time, and comes to the second. -/
inductive Applies (decls : Declarations) :
    Scope → Substitution → Ty → List Expr → Ty → Substitution → Prop where
  | nil {Γ s t} : Applies decls Γ s t [] t s
  | cons {Γ s s₁ s₂ s₃ t d c arg args u} : HasType decls Γ s arg d s₁ → Evolves s₁ s₂ →
      s₂.Same t (.fn d c) → Applies decls Γ s₂ c args u s₃ →
      Applies decls Γ s t (arg :: args) u s₃

/-- There is one scrutinee for each placeholder, and it has the type of the placeholder. -/
inductive Scrutinized (decls : Declarations) :
    Scope → Substitution → List Expr → List Argument → Substitution → Prop where
  | nil {Γ s} : Scrutinized decls Γ s [] [] s
  | cons {Γ s s' s'' e es param params} : HasType decls Γ s e param.ty s' →
      Scrutinized decls Γ s' es params s'' →
      Scrutinized decls Γ s (e :: es) (param :: params) s''

/-- The bodies of clauses have this type, each with the captures of its patterns. -/
inductive ClausesTyped (decls : Declarations) :
    Scope → Substitution → Ty → List Clause → Substitution → Prop where
  | nil {Γ s s' result} : Evolves s s' → ClausesTyped decls Γ s result [] s'
  | cons {Γ Γ' s s₁ s₂ s₃ result clause clauses ts} :
      RowMatches decls none Γ s (clause.patterns.map Pattern.part) ts s₁ Γ' →
      HasType decls Γ' s₁ clause.body result s₂ → ClausesTyped decls Γ s₂ result clauses s₃ →
      ClausesTyped decls Γ s result (clause :: clauses) s₃

end

/-- The type of a matcher is an instance of its signature, if there is one, and its clauses have its
result type. They may use the name of the matcher, with one type for all uses. -/
def MatcherTyped (decls : Declarations) (Γ : Scope) (s : Substitution) (m : Matcher)
    (s' : Substitution) : Prop :=
  ∃ start, Evolves s start ∧
    (∀ signature ∈ decls.env.global? m.name, ∃ t, s.IsInstance signature t ∧ start.Same t m.fnTy) ∧
    ClausesTyped decls ((m.name, m.fnTy) :: Γ) start m.result m.clauses s'

variable {decls : Declarations} {s s' s'' : Substitution}

theorem RowMatches.length_eq {declared : Option Fields} {Γ Γ' : Scope} {s s' : Substitution}
    {parts : List Part} {ts : List Ty} :
    RowMatches decls declared Γ s parts ts s' Γ' → ts.length = parts.length
  | .nil => rfl
  | .cons _ _ hrow => congrArg (· + 1) hrow.length_eq

/-! ## Moments -/

theorem ClausesTyped.later {Γ : Scope} {s s' s'' : Substitution} {result : Ty}
    {clauses : List Clause} :
    ClausesTyped decls Γ s result clauses s' → Evolves s' s'' → ClausesTyped decls Γ s result clauses s''
  | .nil h, h' => .nil (h.trans h')
  | .cons hrow hbody hrest, h' => .cons hrow hbody (hrest.later h')

/-- A matcher that is typed stays so. -/
theorem MatcherTyped.later {Γ : Scope} {m : Matcher} (h : MatcherTyped decls Γ s m s')
    (h' : Evolves s' s'') : MatcherTyped decls Γ s m s'' := by
  obtain ⟨start, hstart, hsignature, hclauses⟩ := h
  exact ⟨start, hstart, hsignature, hclauses.later h'⟩

theorem PlaceHas.evolves {place : Place} {t : Ty} (h : PlaceHas decls s place t s') : Evolves s s' := by
  induction h with
  | argument => exact .refl
  | field _ _ => exact .refl
  | openField _ => exact .refl
  | later _ h _ ih => exact ih.trans h

mutual

theorem Matches.evolves {Γ Γ' : Scope} {s s' : Substitution} {p : Pattern} {t : Ty} :
    Matches decls Γ s p t s' Γ' → Evolves s s'
  | .ignore => .refl
  | .capture hplace _ => hplace.evolves
  | .equal hplace _ h _ => hplace.evolves.trans h
  | .record hplace _ hrow h _ => hplace.evolves.trans (hrow.evolves.trans h)
  | .tuple hplace _ hrow h _ => hplace.evolves.trans (hrow.evolves.trans h)
  | .later hp h _ => hp.evolves.trans h

theorem RowMatches.evolves {declared : Option Fields} {Γ Γ' : Scope} {s s' : Substitution}
    {parts : List Part} {ts : List Ty} : RowMatches decls declared Γ s parts ts s' Γ' → Evolves s s'
  | .nil => .refl
  | .cons _ hp hrow => hp.evolves.trans hrow.evolves

end

mutual

/-- The moments of a derivation come in order, so what has to be equal on the way is so in the end. -/
theorem HasType.evolves {Γ : Scope} {s s' : Substitution} {e : Expr} {t : Ty} :
    HasType decls Γ s e t s' → Evolves s s'
  | .literal => .refl
  | .name _ => .refl
  | .call hcallee hargs => hcallee.evolves.trans hargs.evolves
  | .cond hc ht he => hc.evolves.trans (ht.evolves.trans he.evolves)
  | .letIn hvalue hbody => hvalue.evolves.trans hbody.evolves
  | .access hvalue _ _ => hvalue.evolves
  | .openAccess hvalue _ => hvalue.evolves
  | .matching hscrutinees hclauses => hscrutinees.evolves.trans hclauses.evolves
  | .later he h _ => he.evolves.trans h

theorem Applies.evolves {Γ : Scope} {s s' : Substitution} {args : List Expr} {t u : Ty} :
    Applies decls Γ s t args u s' → Evolves s s'
  | .nil => .refl
  | .cons harg h _ hargs => harg.evolves.trans (h.trans hargs.evolves)

theorem Scrutinized.evolves {Γ : Scope} {s s' : Substitution} {es : List Expr}
    {params : List Argument} : Scrutinized decls Γ s es params s' → Evolves s s'
  | .nil => .refl
  | .cons he hes => he.evolves.trans hes.evolves

theorem ClausesTyped.evolves {Γ : Scope} {s s' : Substitution} {result : Ty} {clauses : List Clause} :
    ClausesTyped decls Γ s result clauses s' → Evolves s s'
  | .nil h => h
  | .cons hrow hbody hrest => hrow.evolves.trans (hbody.evolves.trans hrest.evolves)

end

end Clausal
