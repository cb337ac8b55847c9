/-!
Interned texts. Each text gets a symbol, its number in the order of first interning. A symbol does
not say which interner made it.
-/
namespace Clausal

/-- The number of an interned text. -/
structure Symbol where
  index : Nat
deriving DecidableEq, Inhabited, Repr

instance : LT Symbol := ⟨fun a b => a.index < b.index⟩

instance (a b : Symbol) : Decidable (a < b) :=
  inferInstanceAs (Decidable (a.index < b.index))

/-- The texts interned so far, in order. -/
structure Interner where
  texts : Array String := #[]
deriving Inhabited, Repr

namespace Interner

def get? (i : Interner) (text : String) : Option Symbol :=
  (i.texts.findIdx? (· == text)).map Symbol.mk

/-- The symbol of a text, which is interned if it was not. -/
def intern (i : Interner) (text : String) : Symbol × Interner :=
  match i.get? text with
  | some s => (s, i)
  | none => (⟨i.texts.size⟩, ⟨i.texts.push text⟩)

def internIndexed (i : Interner) (text : String) (number : Nat) : Symbol × Interner :=
  i.intern (text ++ toString number)

def resolve? (i : Interner) (s : Symbol) : Option String :=
  i.texts[s.index]?

/-- The text of a symbol as shown, also of one that is not known here. -/
def display (i : Interner) (s : Symbol) : String :=
  (i.resolve? s).getD "<?>"

end Interner
end Clausal
