import Clausal.Proofs.Typing.Rules
import Clausal.Proofs.Unification.Completeness

/-!
# Exact typing rules

The typing rules with equations taken at their word: two types are equal if they are, arguments of
constructors included. An assignment says what the type variables of the program stand for, and a
signature has as instances the copies of what it is resolved to by one substitution, so no moments are
needed. Scopes hold what the types of locals stand for.

The checker asks for less, since it does not compare the arguments of constructors; and it takes field
accesses in the order in which it comes upon them. A derivation by these rules knows every type at once.
-/
namespace Clausal.Exact

open Substitution

/-- The value at a place has this type. A field that is not declared may have any type. -/
inductive PlaceHas (decls : Declarations) (s : Substitution) (θ : Assignment) : Place → Ty → Prop where
  | argument {arg tag} : PlaceHas decls s θ (.argument arg tag) (arg.ty.under θ)
  | field {parent n tag signature t} : parent.tag?.bind (decls.env.field? · n) = some signature →
      s.IsInstance signature t → PlaceHas decls s θ (.field parent n tag) t
  | openField {parent n tag t} : parent.tag?.bind (decls.env.field? · n) = none →
      PlaceHas decls s θ (.field parent n tag) t

mutual

/-- A pattern matches a value of this type. Behind it, the locals are those of the second scope. -/
inductive Matches (decls : Declarations) (s : Substitution) (θ : Assignment) :
    Scope → Pattern → Ty → Scope → Prop where
  | ignore {Γ sp t} : Matches decls s θ Γ (.ignore sp) t Γ
  | capture {Γ sp n annotation place t} : PlaceHas decls s θ place t →
      (∀ u ∈ annotation, u.under θ = t) →
      Matches decls s θ Γ (.capture sp n annotation (some place)) t ((n, t) :: Γ)
  | equal {Γ sp e place t} : PlaceHas decls s θ place t → Expects decls Γ s e t →
      Matches decls s θ Γ (.equal sp e (some place)) t Γ
  | record {Γ Γ' sp constr cs fields place ts} :
      PlaceHas decls s θ place (.named (decls.config.tupleTypeName fields.length) ts) →
      RowMatches decls s θ Γ (fields.map (·.pattern)) ts Γ' →
      Matches decls s θ Γ (.record sp constr cs fields (some place))
        (.named (decls.config.tupleTypeName fields.length) ts) Γ'
  | tuple {Γ Γ' sp constr cs fields place ts} :
      PlaceHas decls s θ place (.named (decls.config.tupleTypeName fields.length) ts) →
      RowMatches decls s θ Γ fields ts Γ' →
      Matches decls s θ Γ (.tuple sp constr cs fields (some place))
        (.named (decls.config.tupleTypeName fields.length) ts) Γ'

/-- Patterns match values of these types, each with the locals of those before it. -/
inductive RowMatches (decls : Declarations) (s : Substitution) (θ : Assignment) :
    Scope → List Pattern → List Ty → Scope → Prop where
  | nil {Γ} : RowMatches decls s θ Γ [] [] Γ
  | cons {Γ Γ' Γ'' p ps t ts} : Matches decls s θ Γ p t Γ' → RowMatches decls s θ Γ' ps ts Γ'' →
      RowMatches decls s θ Γ (p :: ps) (t :: ts) Γ''

end

mutual

/-- An expression has this type. -/
inductive HasType (decls : Declarations) (s : Substitution) (θ : Assignment) : Scope → Expr → Ty → Prop where
  | literal {Γ sp l} : HasType decls s θ Γ (.literal sp l) (Checker.literalTy l)
  | name {Γ sp n t} : NameHas decls Γ s n t → HasType decls s θ Γ (.name sp n) t
  | call {Γ sp callee args t u} : HasType decls s θ Γ callee t → Applies decls s θ Γ t args u →
      HasType decls s θ Γ (.call sp callee args) u
  | cond {Γ sp c x y t} : HasType decls s θ Γ c (.constant "Bool") → HasType decls s θ Γ x t →
      HasType decls s θ Γ y t → HasType decls s θ Γ (.cond sp c x y) t
  /-- A name bound by `let` has one type for all its uses. -/
  | letIn {Γ sp n ns value body t u} : HasType decls s θ Γ value u →
      HasType decls s θ ((n, u) :: Γ) body t → HasType decls s θ Γ (.letIn sp n ns value body) t
  /-- A value of a type named as a constructor has the fields of that constructor. -/
  | access {Γ sp value f fs constr ts signature t} : HasType decls s θ Γ value (.named constr ts) →
      decls.env.field? constr f = some signature → s.IsInstance signature t →
      HasType decls s θ Γ (.access sp value f fs) t
  | openAccess {Γ sp value f fs t u} : HasType decls s θ Γ value u →
      (∀ constr ts, u = .named constr ts → decls.env.field? constr f = none) →
      HasType decls s θ Γ (.access sp value f fs) t
  | matching {Γ sp scrutinees m} : Scrutinized decls s θ Γ scrutinees m.params →
      ClausesTyped decls s θ Γ m.result m.clauses →
      HasType decls s θ Γ (.matching sp scrutinees m) (m.result.under θ)

/-- What has the first type can be applied to the arguments one at a time, and comes to the second. -/
inductive Applies (decls : Declarations) (s : Substitution) (θ : Assignment) :
    Scope → Ty → List Expr → Ty → Prop where
  | nil {Γ t} : Applies decls s θ Γ t [] t
  | cons {Γ d c arg args u} : HasType decls s θ Γ arg d → Applies decls s θ Γ c args u →
      Applies decls s θ Γ (.fn d c) (arg :: args) u

/-- There is one scrutinee for each placeholder, and it has the type of the placeholder. -/
inductive Scrutinized (decls : Declarations) (s : Substitution) (θ : Assignment) :
    Scope → List Expr → List Argument → Prop where
  | nil {Γ} : Scrutinized decls s θ Γ [] []
  | cons {Γ e es param params} : HasType decls s θ Γ e (param.ty.under θ) →
      Scrutinized decls s θ Γ es params → Scrutinized decls s θ Γ (e :: es) (param :: params)

/-- The bodies of clauses have this type, each with the captures of its patterns. -/
inductive ClausesTyped (decls : Declarations) (s : Substitution) (θ : Assignment) :
    Scope → Ty → List Clause → Prop where
  | nil {Γ result} : ClausesTyped decls s θ Γ result []
  | cons {Γ Γ' result clause clauses ts} : RowMatches decls s θ Γ clause.patterns ts Γ' →
      HasType decls s θ Γ' clause.body (result.under θ) → ClausesTyped decls s θ Γ result clauses →
      ClausesTyped decls s θ Γ result (clause :: clauses)

end

/-- The type of a matcher is an instance of its signature, if there is one, and its clauses have its
result type. They may use the name of the matcher, with one type for all uses. -/
structure MatcherTyped (decls : Declarations) (s : Substitution) (θ : Assignment) (Γ : Scope)
    (m : Matcher) : Prop where
  signature : ∀ signature ∈ decls.env.global? m.name, s.IsInstance signature (m.fnTy.under θ)
  clauses : ClausesTyped decls s θ ((m.name, m.fnTy.under θ) :: Γ) m.result m.clauses

theorem RowMatches.length_eq {decls : Declarations} {s : Substitution} {θ : Assignment} {Γ Γ' : Scope}
    {ps : List Pattern} {ts : List Ty} : RowMatches decls s θ Γ ps ts Γ' → ts.length = ps.length
  | .nil => rfl
  | .cons _ hrow => congrArg (· + 1) hrow.length_eq

theorem Scrutinized.length_eq {decls : Declarations} {s : Substitution} {θ : Assignment} {Γ : Scope}
    {es : List Expr} {params : List Argument} :
    Scrutinized decls s θ Γ es params → params.length = es.length
  | .nil => rfl
  | .cons _ hes => congrArg (· + 1) hes.length_eq

end Clausal.Exact
