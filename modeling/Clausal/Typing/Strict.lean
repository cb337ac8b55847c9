import Clausal.Substitution.Strict
import Clausal.Typing.Matcher

/-!
The checker on a substitution with checked bounds. It takes the steps of `Matcher.check` in their order, and
stops at the first variable that the substitution did not make. What does not look at the substitution, and
what only makes new variables, is the same for both.
-/
namespace Clausal

namespace Checker

def onSubstStrict {α : Type} (step : SubstM α) : CheckM α := fun _ c =>
  match step c.subst with
  | .ok a s => .ok a { c with subst := s }
  | .error v s => .error v { c with subst := s }

def instantiateStrict (t : Ty) : CheckM Ty :=
  onSubstStrict (Substitution.instantiateStrict t)

def resolveStrict (t : Ty) : CheckM Ty :=
  onSubstStrict (Substitution.resolveStrict t)

def lookupStrict? (name : String) : CheckM (Option Ty) := do
  match (← get).scopes.findSome? (·.lookup name) with
  | some ty => return some ty
  | none =>
    match (← read).env.global? name with
    | some ty => return some (← instantiateStrict ty)
    | none => return none

def instantiateOrFreshStrict : Option Ty → CheckM Ty
  | some ty => instantiateStrict ty
  | none => fresh

def unifyAtStrict (expected actual : Ty) (span : Span) : CheckM Ty := do
  match ← onSubstStrict (Substitution.unifyStrict actual expected) with
  | .unified ty => return ty
  | .mismatch e a =>
    report (.typeMismatch (← resolveStrict e) (← resolveStrict a) span)
    return expected
  | .circular ty var =>
    report (.circularType (← resolveStrict ty) var span)
    return expected

def typeOfPlaceStrict : Place → CheckM Ty
  | .argument arg _ => return arg.ty
  | .field parent name _ => do
    let env := (← read).env
    instantiateOrFreshStrict (parent.tag?.bind (env.field? · name))

end Checker

open Checker

namespace Pattern

def unifyTupleStrict (valueTy : Ty) (fieldTys : List Ty) (span : Span) : CheckM Ty := do
  let name := (← read).config.tupleTypeName fieldTys.length
  unifyAtStrict valueTy (.named name fieldTys) span

def expectedTyStrict (valueTy : Ty) (span : Span) : Expected → CheckM Ty
  | .literal l => return literalTy l
  | .name n => do
    match ← lookupStrict? n with
    | some ty => return ty
    | none =>
      report (.symbolNotFound n span)
      return valueTy

mutual

def checkStrict : Pattern → CheckM (Ty × Pattern)
  | .ignore s => do
    return (← fresh, .ignore s)
  | .group _ _ => throw .checkedGroup
  | .capture s n annotation place => do
    let valueTy ← typeOfPlaceStrict (← Place.ofBound place)
    let declared ← match annotation with
      | some ty => pure ty
      | none => fresh
    let ty ← unifyAtStrict valueTy declared s
    bindLocal n ty
    return (ty, .capture s n (some ty) place)
  | .equal s e place => do
    let valueTy ← typeOfPlaceStrict (← Place.ofBound place)
    let expected ← expectedTyStrict valueTy s e
    return (← unifyAtStrict valueTy expected s, .equal s e place)
  | .record s c cs fields place => do
    let valueTy ← typeOfPlaceStrict (← Place.ofBound place)
    let declared ← declaredFields c cs
    let (tys, fields) ← checkFieldsStrict declared fields
    return (← unifyTupleStrict valueTy tys s, .record s c cs fields place)
  | .tuple s c cs fields place => do
    let valueTy ← typeOfPlaceStrict (← Place.ofBound place)
    let declared ← declaredFields c cs
    let (tys, fields) ← checkPositionsStrict declared fields
    return (← unifyTupleStrict valueTy tys s, .tuple s c cs fields place)

def checkFieldsStrict (declared : Option Fields) :
    List FieldPattern → CheckM (List Ty × List FieldPattern)
  | [] => return ([], [])
  | ⟨n, ns, p⟩ :: fs => do
    checkField declared n ns
    let (ty, p) ← checkStrict p
    let (tys, fs) ← checkFieldsStrict declared fs
    return (ty :: tys, ⟨n, ns, p⟩ :: fs)

def checkPositionsStrict (declared : Option Fields) : List Pattern → CheckM (List Ty × List Pattern)
  | [] => return ([], [])
  | p :: ps => do
    match p.place?.bind Place.fieldName? with
    | some name => checkField declared name p.span
    | none => pure ()
    let (ty, p) ← checkStrict p
    let (tys, ps) ← checkPositionsStrict declared ps
    return (ty :: tys, p :: ps)

end

def checkAllStrict : List Pattern → CheckM (List Pattern)
  | [] => return []
  | p :: ps => do
    let (_, p) ← p.checkStrict
    return p :: (← checkAllStrict ps)

end Pattern

mutual

def Expr.inferStrict : Expr → CheckM Ty
  | .literal _ l => return literalTy l
  | .name s n => do
    match ← lookupStrict? n with
    | some ty => return ty
    | none =>
      report (.symbolNotFound n s)
      fresh
  | .call _ callee args => do
    let calleeTy ← callee.inferStrict
    Expr.inferCallStrict calleeTy args
  | .cond _ c t e => do
    let conditionTy ← c.inferStrict
    let _ ← unifyAtStrict (.constant "Bool") conditionTy c.span
    let consequenceTy ← t.inferStrict
    let alternativeTy ← e.inferStrict
    unifyAtStrict consequenceTy alternativeTy e.span
  | .letIn _ n _ value body => do
    let valueTy ← value.inferStrict
    withScope do
      bindLocal n valueTy
      body.inferStrict
  | .access _ value f _ => do
    let valueTy ← value.inferStrict
    let env := (← read).env
    match ← onSubstStrict (Substitution.chaseStrict valueTy) with
    | .named n _ => instantiateOrFreshStrict (env.field? n f)
    | _ => fresh
  | .matching s scrutinees ⟨_, _, params, result, clauses⟩ => do
    if params.length ≠ scrutinees.length then
      report (.arityMismatch params.length scrutinees.length s)
    Expr.inferScrutineesStrict scrutinees params
    let _ ← Matcher.checkClausesStrict result clauses
    return result

def Expr.inferCallStrict (calleeTy : Ty) : List Expr → CheckM Ty
  | [] => return calleeTy
  | arg :: args => do
    let argTy ← arg.inferStrict
    let resultTy ← fresh
    let _ ← unifyAtStrict (.fn argTy resultTy) calleeTy arg.span
    Expr.inferCallStrict resultTy args

def Expr.inferScrutineesStrict : List Expr → List Argument → CheckM Unit
  | [], _ => return
  | e :: es, [] => do
    let _ ← e.inferStrict
    Expr.inferScrutineesStrict es []
  | e :: es, param :: params => do
    let ty ← e.inferStrict
    let _ ← unifyAtStrict param.ty ty e.span
    Expr.inferScrutineesStrict es params

def Matcher.checkClausesStrict (result : Ty) : List Clause → CheckM (List Clause)
  | [] => return []
  | ⟨s, patterns, body⟩ :: clauses => do
    let patterns ← withScope do
      let patterns ← Pattern.checkAllStrict patterns
      let bodyTy ← body.inferStrict
      let _ ← unifyAtStrict result bodyTy body.span
      return patterns
    return ⟨s, patterns, body⟩ :: (← Matcher.checkClausesStrict result clauses)

end

def Matcher.checkStrict (m : Matcher) : CheckM (Ty × Matcher) := do
  match (← read).env.global? m.name with
  | some signature =>
    let signature ← instantiateStrict signature
    let _ ← unifyAtStrict signature m.fnTy m.nameSpan
  | none => pure ()
  let clauses ← withScope do
    bindLocal m.name m.fnTy
    Matcher.checkClausesStrict m.result m.clauses
  return (← resolveStrict m.fnTy, { m with clauses := clauses })

end Clausal
