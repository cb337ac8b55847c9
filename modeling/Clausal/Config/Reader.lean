import Clausal.Config
import Clausal.Text.LetterCase
import Clausal.Text.Quoted
import Clausal.Toml.Document

/-!
Settings from a TOML document. Every setting has a default, so the empty document gives the default
settings; keys that are no settings are left alone.
-/
namespace Clausal

/-- Why a document gives no settings. -/
inductive ConfigError where
  /-- The document cannot be read, or is no text. -/
  | unreadable
  /-- The text is not TOML, or a setting has a value of the wrong kind. -/
  | malformed
  /-- The type of a destructured value would not be named as a constructor. -/
  | notUppercase (tupleTypePrefix : String)
deriving DecidableEq, Repr

/-- The wording of the error that this library finds itself. -/
def ConfigError.message? : ConfigError → Option String
  | .unreadable => none
  | .malformed => none
  | .notUppercase name =>
    some ("`tuple_type_prefix` must start with an uppercase letter, found " ++ Text.quoted name)

namespace Config

/-- The tuple type names are constructor names, so they start with an uppercase character. -/
def validate (config : Config) : Except ConfigError Config :=
  match config.tupleTypePrefix.toList with
  | c :: _ =>
    if Text.isUppercase c then .ok config else .error (.notUppercase config.tupleTypePrefix)
  | [] => .error (.notUppercase config.tupleTypePrefix)

def textAt (es : Toml.Entries) (key default : String) : Except ConfigError String :=
  match es.lookup key with
  | none => .ok default
  | some (.text content) => .ok content
  | some _ => .error .malformed

def wordAt (es : Toml.Entries) (key : String) (default : UInt64) : Except ConfigError UInt64 :=
  match es.lookup key with
  | none => .ok default
  | some (.integer (.ofNat n)) => .ok n.toUInt64
  | some _ => .error .malformed

def flagAt (es : Toml.Entries) (key : String) (default : Bool) : Except ConfigError Bool :=
  match es.lookup key with
  | none => .ok default
  | some (.boolean b) => .ok b
  | some _ => .error .malformed

/-- The settings that the keys of a document give, not validated. -/
def ofEntries (es : Toml.Entries) : Except ConfigError Config := do
  let default : Config := {}
  let typeName ← textAt es "tuple_type_prefix" default.tupleTypePrefix
  let fieldName ← textAt es "tuple_field_prefix" default.tupleFieldPrefix
  let base ← wordAt es "tuple_field_base" default.tupleFieldBase
  let report ← flagAt es "report_undeclared_constructors" default.reportUndeclaredConstrs
  return ⟨typeName, fieldName, base, report⟩

def ofToml (source : String) : Except ConfigError Config :=
  match Toml.parse source with
  | none => .error .malformed
  | some es => do (← ofEntries es).validate

/-- The settings of a file, if its content could be read. -/
def ofFile (content : Option ByteArray) : Except ConfigError Config :=
  match content.bind String.fromUTF8? with
  | none => .error .unreadable
  | some source => ofToml source

end Config
end Clausal
