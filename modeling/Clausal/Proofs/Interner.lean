import Clausal.Interner
import Mathlib.Data.List.Nodup

/-!
# Symbols stand for texts

An interner keeps each text once and never forgets one. A symbol that it gave out is shown as its text from
then on; two of them are shown alike only if they are the same symbol, and the text they show as is interned
to that symbol again.
-/
namespace Clausal.Interner

variable {i : Interner} {a b : Symbol} {text : String}

/-- No text has two symbols. -/
def Unrepeated (i : Interner) : Prop :=
  i.texts.toList.Nodup

/-- The interner gave out the symbol. -/
def Known (i : Interner) (a : Symbol) : Prop :=
  a.index < i.texts.size

theorem unrepeated_empty : Unrepeated {} :=
  List.nodup_nil

theorem Known.display_eq (h : i.Known a) : i.display a = i.texts[a.index] := by
  rw [display, resolve?, Array.getElem?_eq_getElem h, Option.getD_some]

/-- Interning either finds a symbol that shows as the text, or adds the text behind all others. -/
theorem intern_cases (i : Interner) (text : String) :
    (∃ a, i.Known a ∧ i.display a = text ∧ i.intern text = (a, i)) ∨
    (text ∉ i.texts.toList ∧ i.intern text = (⟨i.texts.size⟩, ⟨i.texts.push text⟩)) := by
  cases hfind : i.texts.findIdx? (· == text) with
  | some k =>
    obtain ⟨hk, htext, -⟩ := Array.findIdx?_eq_some_iff_getElem.mp hfind
    have hknown : i.Known ⟨k⟩ := hk
    refine .inl ⟨⟨k⟩, hknown, hknown.display_eq.trans (eq_of_beq htext), ?_⟩
    rw [intern, get?, hfind]
    rfl
  | none =>
    refine .inr ⟨fun hmem => ?_, ?_⟩
    · have hne : (text == text) = false :=
        Array.findIdx?_eq_none_iff.mp hfind text (Array.mem_toList_iff.mp hmem)
      exact absurd (beq_self_eq_true text) (Bool.eq_false_iff.mp hne)
    · rw [intern, get?, hfind]
      rfl

/-! ## Old symbols -/

theorem Known.intern (h : i.Known a) (text : String) : (i.intern text).2.Known a := by
  rcases i.intern_cases text with ⟨b, -, -, heq⟩ | ⟨-, heq⟩
  · rw [heq]
    exact h
  · rw [heq, Known, Array.size_push]
    exact Nat.lt_succ_of_lt h

theorem Known.display_intern (h : i.Known a) (text : String) :
    (i.intern text).2.display a = i.display a := by
  rcases i.intern_cases text with ⟨b, -, -, heq⟩ | ⟨-, heq⟩
  · rw [heq]
  · rw [(h.intern text).display_eq, h.display_eq]
    simp only [heq]
    exact Array.getElem_push_lt h

/-! ## The new symbol -/

theorem known_intern (i : Interner) (text : String) : (i.intern text).2.Known (i.intern text).1 := by
  rcases i.intern_cases text with ⟨b, hb, -, heq⟩ | ⟨-, heq⟩
  · rw [heq]
    exact hb
  · rw [heq, Known, Array.size_push]
    exact Nat.lt_succ_self _

theorem display_intern (i : Interner) (text : String) :
    (i.intern text).2.display (i.intern text).1 = text := by
  rcases i.intern_cases text with ⟨b, -, htext, heq⟩ | ⟨-, heq⟩
  · rw [heq]
    exact htext
  · rw [(known_intern i text).display_eq]
    simp only [heq]
    exact Array.getElem_push_eq

theorem Unrepeated.intern (h : i.Unrepeated) (text : String) : (i.intern text).2.Unrepeated := by
  rcases i.intern_cases text with ⟨b, -, -, heq⟩ | ⟨hnew, heq⟩
  · rw [heq]
    exact h
  · rw [heq, Unrepeated, Array.toList_push, ← List.concat_eq_append]
    exact List.Nodup.concat hnew h

/-! ## Symbols told apart -/

theorem Unrepeated.eq_of_display (h : i.Unrepeated) (ha : i.Known a) (hb : i.Known b)
    (heq : i.display a = i.display b) : a = b := by
  rw [ha.display_eq, hb.display_eq] at heq
  have hindex : a.index = b.index := (List.Nodup.getElem_inj_iff h).mp heq
  cases a
  exact congrArg Symbol.mk hindex

theorem Unrepeated.intern_display (h : i.Unrepeated) (ha : i.Known a) :
    i.intern (i.display a) = (a, i) := by
  rcases i.intern_cases (i.display a) with ⟨b, hb, htext, heq⟩ | ⟨hnew, -⟩
  · rw [heq, h.eq_of_display hb ha htext]
  · rw [ha.display_eq] at hnew
    exact absurd (List.getElem_mem ha) hnew

end Clausal.Interner
