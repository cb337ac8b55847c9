import Clausal.Pattern.Basic
import Clausal.Typing.Checker

/-!
Checking patterns against the types of their values. Captures are recorded in the innermost scope,
so they are in scope to their right. A destructured value gets a type of its own making: the tuple
type of its number of fields, applied to the types of the fields.
-/
namespace Clausal

open Checker

def Place.ofBound : Option Place → CheckM Place
  | some place => return place
  | none => throw .checkedUnbound

namespace Pattern

/-- The declared fields of the constructor of a pattern. One that is not declared is reported, if the
settings ask for it. -/
def declaredFields (constr : String) (span : Span) : CheckM (Option Fields) := do
  let fields := (← read).env.constr? constr
  if fields.isNone && (← read).config.reportUndeclaredConstrs then
    report (.symbolNotFound constr span)
  return fields

def checkField (declared : Option Fields) (name : String) (span : Span) : CheckM Unit := do
  match declared with
  | none => return
  | some fields =>
    if (fields.lookup name).isNone then
      report (.symbolNotFound name span)

/-- Unifies the type of a destructured value with the tuple type of its fields. -/
def unifyTuple (valueTy : Ty) (fieldTys : List Ty) (span : Span) : CheckM Ty := do
  let name := (← read).config.tupleTypeName fieldTys.length
  unifyAt valueTy (.named name fieldTys) span

/-- The type that an equality pattern asks of its value. A name that is not known asks for nothing. -/
def expectedTy (valueTy : Ty) (span : Span) : Expected → CheckM Ty
  | .literal l => return literalTy l
  | .name n => do
    match ← lookup? n with
    | some ty => return ty
    | none =>
      report (.symbolNotFound n span)
      return valueTy

mutual

/-- Checks a pattern: its type, and the pattern with the types of its captures. -/
def check : Pattern → CheckM (Ty × Pattern)
  | .ignore s => do
    return (← fresh, .ignore s)
  | .group _ _ => throw .checkedGroup
  | .capture s n annotation place => do
    let valueTy ← typeOfPlace (← Place.ofBound place)
    let declared ← match annotation with
      | some ty => pure ty
      | none => fresh
    let ty ← unifyAt valueTy declared s
    bindLocal n ty
    return (ty, .capture s n (some ty) place)
  | .equal s e place => do
    let valueTy ← typeOfPlace (← Place.ofBound place)
    let expected ← expectedTy valueTy s e
    return (← unifyAt valueTy expected s, .equal s e place)
  | .record s c cs fields place => do
    let valueTy ← typeOfPlace (← Place.ofBound place)
    let declared ← declaredFields c cs
    let (tys, fields) ← checkFields declared fields
    return (← unifyTuple valueTy tys s, .record s c cs fields place)
  | .tuple s c cs fields place => do
    let valueTy ← typeOfPlace (← Place.ofBound place)
    let declared ← declaredFields c cs
    let (tys, fields) ← checkPositions declared fields
    return (← unifyTuple valueTy tys s, .tuple s c cs fields place)

/-- Checks the patterns of named fields, each field first. -/
def checkFields (declared : Option Fields) :
    List FieldPattern → CheckM (List Ty × List FieldPattern)
  | [] => return ([], [])
  | ⟨n, ns, p⟩ :: fs => do
    checkField declared n ns
    let (ty, p) ← check p
    let (tys, fs) ← checkFields declared fs
    return (ty :: tys, ⟨n, ns, p⟩ :: fs)

/-- Checks the patterns of fields by position. A field is looked up by the name its pattern projects,
so one that is ignored is not. -/
def checkPositions (declared : Option Fields) : List Pattern → CheckM (List Ty × List Pattern)
  | [] => return ([], [])
  | p :: ps => do
    match p.place?.bind Place.fieldName? with
    | some name => checkField declared name p.span
    | none => pure ()
    let (ty, p) ← check p
    let (tys, ps) ← checkPositions declared ps
    return (ty :: tys, p :: ps)

end

def checkAll : List Pattern → CheckM (List Pattern)
  | [] => return []
  | p :: ps => do
    let (_, p) ← p.check
    return p :: (← checkAll ps)

end Pattern
end Clausal
