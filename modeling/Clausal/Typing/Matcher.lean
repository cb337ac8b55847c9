import Clausal.Matcher.Basic
import Clausal.Typing.Pattern

/-!
Inferring the types of expressions and checking matchers. A name bound by `let` has one type for all
its uses; a matcher may use its own name, with one type for all uses too, while a matcher inside an
expression does not bind its name.
-/
namespace Clausal

open Checker

mutual

def Expr.infer : Expr → CheckM Ty
  | .literal _ l => return literalTy l
  | .name s n => do
    match ← lookup? n with
    | some ty => return ty
    | none =>
      report (.symbolNotFound n s)
      fresh
  | .call _ callee args => do
    let calleeTy ← callee.infer
    Expr.inferCall calleeTy args
  | .cond _ c t e => do
    let conditionTy ← c.infer
    let _ ← unifyAt (.constant "Bool") conditionTy c.span
    let consequenceTy ← t.infer
    let alternativeTy ← e.infer
    unifyAt consequenceTy alternativeTy e.span
  | .letIn _ n _ value body => do
    let valueTy ← value.infer
    withScope do
      bindLocal n valueTy
      body.infer
  | .access _ value f _ => do
    let valueTy ← value.infer
    let env := (← read).env
    -- a value of a type named as a constructor has the fields of that constructor
    match (← get).subst.chase valueTy with
    | .named n _ => instantiateOrFresh (env.field? n f)
    | _ => fresh
  | .matching s scrutinees ⟨_, _, params, result, clauses⟩ => do
    if params.length ≠ scrutinees.length then
      report (.arityMismatch params.length scrutinees.length s)
    Expr.inferScrutinees scrutinees params
    let _ ← Matcher.checkClauses result clauses
    return result

/-- The type of what a call comes to, its arguments taken one at a time. -/
def Expr.inferCall (calleeTy : Ty) : List Expr → CheckM Ty
  | [] => return calleeTy
  | arg :: args => do
    let argTy ← arg.infer
    let resultTy ← fresh
    let _ ← unifyAt (.fn argTy resultTy) calleeTy arg.span
    Expr.inferCall resultTy args

/-- Gives each scrutinee the type of its placeholder. Surplus scrutinees are checked by themselves. -/
def Expr.inferScrutinees : List Expr → List Argument → CheckM Unit
  | [], _ => return
  | e :: es, [] => do
    let _ ← e.infer
    Expr.inferScrutinees es []
  | e :: es, param :: params => do
    let ty ← e.infer
    let _ ← unifyAt param.ty ty e.span
    Expr.inferScrutinees es params

/-- Checks clauses with this result from top to bottom, each in a scope of its own. -/
def Matcher.checkClauses (result : Ty) : List Clause → CheckM (List Clause)
  | [] => return []
  | ⟨s, patterns, body⟩ :: clauses => do
    let patterns ← withScope do
      let patterns ← Pattern.checkAll patterns
      let bodyTy ← body.infer
      let _ ← unifyAt result bodyTy body.span
      return patterns
    return ⟨s, patterns, body⟩ :: (← Matcher.checkClauses result clauses)

end

/-- Checks a matcher: its type, and the matcher with the types of its captures. A signature declared
for its name has to agree. -/
def Matcher.check (m : Matcher) : CheckM (Ty × Matcher) := do
  match (← read).env.global? m.name with
  | some signature =>
    let signature ← instantiate signature
    let _ ← unifyAt signature m.fnTy m.nameSpan
  | none => pure ()
  let clauses ← withScope do
    bindLocal m.name m.fnTy
    Matcher.checkClauses m.result m.clauses
  return ((← get).subst.resolve m.fnTy, { m with clauses := clauses })

end Clausal
