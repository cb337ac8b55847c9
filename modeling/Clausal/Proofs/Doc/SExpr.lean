import Mathlib.Data.Bool.AllAny
import Mathlib.Data.List.Basic
import Mathlib.Data.List.Infix

/-!
# Symbolic expressions and their texts

Words, quotations and bracketed lists, and how they are written: items apart by blanks, a quotation
between quotes with its content as it is. There is no way to write a quote into a quotation, so what a
quotation contains decides whether its end can be found. A text is the text of one expression only if
each quotation is sealed: no quote in its content stands in front of something that can follow a closing
quote.

The expressions are read off the text from the left, with any text behind them, by recursion on one of
the two expressions that are compared.
-/
namespace Clausal

/-- The two kinds of brackets. -/
inductive Bracket where
  | round
  | square
deriving DecidableEq, Repr

def Bracket.opening : Bracket → Char
  | .round => '('
  | .square => '['

def Bracket.closing : Bracket → Char
  | .round => ')'
  | .square => ']'

theorem Bracket.opening_ne_quote (b : Bracket) : b.opening ≠ '"' := by
  cases b <;> decide

theorem Bracket.opening_inj {b b' : Bracket} (h : b.opening = b'.opening) : b = b' := by
  revert h
  cases b <;> cases b' <;> decide

inductive SExpr where
  | word (spelling : String)
  | quoted (content : String)
  | list (bracket : Bracket) (items : List SExpr)
deriving Inhabited, Repr

namespace SExpr

def blanks : List Char :=
  [' ', '\n']

def closings : List Char :=
  [')', ']']

/-- The characters that can follow an expression. -/
def stops : List Char :=
  closings ++ blanks

/-- The characters that no word has. -/
def delimiters : List Char :=
  ['(', '[', '"'] ++ stops

/-- What stands between two items. -/
def Gap (cs : List Char) : Prop :=
  cs ≠ [] ∧ ∀ c ∈ cs, c ∈ blanks

mutual

/-- The characters are a text of the expression. -/
inductive Written : SExpr → List Char → Prop where
  | word (w : String) : Written (.word w) w.toList
  | quoted (s : String) : Written (.quoted s) ('"' :: (s.toList ++ ['"']))
  | list {b : Bracket} {e : SExpr} {es : List SExpr} {first rest : List Char} :
    Written e first → Behind es rest →
      Written (.list b (e :: es)) (b.opening :: (first ++ rest ++ [b.closing]))

/-- The characters are a text of the items, each with a gap in front. -/
inductive Behind : List SExpr → List Char → Prop where
  | nil : Behind [] []
  | cons {e : SExpr} {es : List SExpr} {gap first rest : List Char} :
    Gap gap → Written e first → Behind es rest → Behind (e :: es) (gap ++ first ++ rest)

end

/-- A word that is read as one word. -/
def Spelled (w : String) : Prop :=
  w.toList ≠ [] ∧ ∀ c ∈ w.toList, c ∉ delimiters

/-- No quote in the content looks like the closing one. -/
def Sealed (content : String) : Prop :=
  ∀ c ∈ stops, ¬ ['"', c] <:+: content.toList

mutual

/-- Each word is read as one word, and each quotation ends where it ends. -/
def Legible : SExpr → Prop
  | .word w => Spelled w
  | .quoted s => Sealed s
  | .list _ items => LegibleAll items

def LegibleAll : List SExpr → Prop
  | [] => True
  | e :: es => e.Legible ∧ LegibleAll es

end

instance (w : String) : Decidable (Spelled w) :=
  decidable_of_iff (w.toList ≠ [] ∧ w.toList.all (fun c => decide (c ∉ delimiters)) = true)
    (and_congr_right fun _ => List.all_iff_forall_prop)

instance (content : String) : Decidable (Sealed content) :=
  decidable_of_iff (stops.all (fun c => decide (¬ ['"', c] <:+: content.toList)) = true)
    List.all_iff_forall_prop

/-! ## Where words, gaps and quotations end -/

/-- The text is at its end, or goes on with one of the characters. -/
def GoesOn (next : List Char) (r : List Char) : Prop :=
  ∀ c ∈ r.head?, c ∈ next

variable {r r' : List Char}

/-- A run of characters with a property ends where the property does. -/
theorem run_unique {p : Char → Bool} {xs ys : List Char} (hxs : ∀ c ∈ xs, p c = true)
    (hys : ∀ c ∈ ys, p c = true) (hr : ∀ c ∈ r.head?, p c = false) (hr' : ∀ c ∈ r'.head?, p c = false)
    (h : xs ++ r = ys ++ r') : xs = ys ∧ r = r' := by
  have hend : ∀ s : List Char, (∀ c ∈ s.head?, p c = false) → s.takeWhile p = [] := fun s hs => by
    cases s with
    | nil => rfl
    | cons c s => exact List.takeWhile_cons_of_neg (by simp [hs c rfl])
  have htake := congrArg (List.takeWhile p) h
  rw [List.takeWhile_append_of_pos hxs, List.takeWhile_append_of_pos hys, hend r hr, hend r' hr',
    List.append_nil, List.append_nil] at htake
  subst htake
  exact ⟨rfl, List.append_cancel_left h⟩

theorem Spelled.unique {w w' : String} (hw : Spelled w) (hw' : Spelled w') (hr : GoesOn stops r)
    (hr' : GoesOn stops r') (h : w.toList ++ r = w'.toList ++ r') : w = w' ∧ r = r' := by
  have hstop : ∀ c ∈ stops, decide (c ∉ delimiters) = false := fun c hc =>
    decide_eq_false fun h => h (List.mem_append_right _ hc)
  have hrun := run_unique (p := fun c => decide (c ∉ delimiters))
    (fun c hc => decide_eq_true (hw.2 c hc)) (fun c hc => decide_eq_true (hw'.2 c hc))
    (fun c hc => hstop c (hr c hc)) (fun c hc => hstop c (hr' c hc)) h
  exact ⟨String.toList_inj.mp hrun.1, hrun.2⟩

/-- Nothing that begins with a delimiter begins with a word. -/
theorem Spelled.ne_cons {w : String} (hw : Spelled w) {c : Char} (hc : c ∈ delimiters) :
    w.toList ++ r ≠ c :: r' := by
  intro h
  cases hcs : w.toList with
  | nil => exact hw.1 hcs
  | cons d ds =>
    rw [hcs, List.cons_append] at h
    have hmem : d ∈ w.toList := hcs ▸ List.mem_cons_self
    exact hw.2 d hmem ((List.cons.inj h).1 ▸ hc)

theorem Gap.unique {gap gap' : List Char} (hg : Gap gap) (hg' : Gap gap')
    (hr : ∀ c ∈ r.head?, c ∉ blanks) (hr' : ∀ c ∈ r'.head?, c ∉ blanks) (h : gap ++ r = gap' ++ r') :
    gap = gap' ∧ r = r' :=
  run_unique (p := fun c => decide (c ∈ blanks))
    (fun c hc => decide_eq_true (hg.2 c hc)) (fun c hc => decide_eq_true (hg'.2 c hc))
    (fun c hc => decide_eq_false (hr c hc)) (fun c hc => decide_eq_false (hr' c hc)) h

theorem Gap.goesOn {gap : List Char} (hg : Gap gap) : GoesOn blanks (gap ++ r) := by
  cases gap with
  | nil => exact absurd rfl hg.1
  | cons c gap =>
    intro d hd
    cases hd
    exact hg.2 c List.mem_cons_self

/-- Where the brackets close, there is no gap. -/
theorem Gap.ne_append {gap : List Char} (hg : Gap gap) (hr : GoesOn closings r) :
    r ≠ gap ++ r' := by
  rintro rfl
  have hdisjoint : ∀ c ∈ closings, c ∉ blanks := by simp [closings, blanks]
  cases gap with
  | nil => exact hg.1 rfl
  | cons c gap => exact hdisjoint c (hr c rfl) (hg.2 c List.mem_cons_self)

/-- No quote in a sealed content can be taken for the closing one. -/
theorem Sealed.not_closed {s : String} (hs : Sealed s) {xs ys : List Char} (hr : GoesOn stops r)
    (hsplit : s.toList = xs ++ '"' :: ys) : r ≠ ys ++ '"' :: r' := by
  rintro rfl
  cases ys with
  | nil => exact absurd (hr '"' rfl) (by decide)
  | cons c ys => exact hs c (hr c rfl) ⟨xs, ys, by simp [hsplit]⟩

theorem Sealed.unique {s s' : String} (hs : Sealed s) (hs' : Sealed s') (hr : GoesOn stops r)
    (hr' : GoesOn stops r') (h : s.toList ++ '"' :: r = s'.toList ++ '"' :: r') :
    s = s' ∧ r = r' := by
  rcases List.append_eq_append_iff.mp h with ⟨ys, hlong, hrest⟩ | ⟨ys, hlong, hrest⟩
  · cases ys with
    | nil => exact ⟨String.toList_inj.mp (by simpa using hlong.symm), (List.cons.inj hrest).2⟩
    | cons c ys =>
      obtain ⟨rfl, hr₁⟩ := List.cons.inj hrest
      exact absurd hr₁ (hs'.not_closed hr hlong)
  · cases ys with
    | nil => exact ⟨String.toList_inj.mp (by simpa using hlong), (List.cons.inj hrest).2.symm⟩
    | cons c ys =>
      obtain ⟨rfl, hr₁⟩ := List.cons.inj hrest
      exact absurd hr₁ (hs.not_closed hr' hlong)

/-! ## Reading an expression off a text -/

variable {e : SExpr} {es : List SExpr} {cs : List Char}

theorem opening_mem_delimiters (b : Bracket) : b.opening ∈ delimiters := by
  cases b <;> decide

theorem goesOn_closing (b : Bracket) : GoesOn closings (b.closing :: r) := by
  intro c hc
  cases hc
  cases b <;> decide

/-- No text of an expression begins with a blank. -/
theorem Written.not_blank (he : e.Legible) (h : Written e cs) : ∀ c ∈ (cs ++ r).head?, c ∉ blanks := by
  intro c hc hblank
  obtain ⟨rest, hrest⟩ := List.head?_eq_some_iff.mp hc
  cases h with
  | word w =>
    rw [Legible] at he
    exact he.ne_cons (List.mem_append_right _ (List.mem_append_right _ hblank)) hrest
  | quoted s =>
    obtain ⟨rfl, -⟩ := List.cons.inj hrest
    exact absurd hblank (by decide)
  | list hfirst hbehind =>
    rename_i b _ _ _ _
    obtain ⟨rfl, -⟩ := List.cons.inj hrest
    cases b <;> exact absurd hblank (by decide)

theorem Behind.goesOn (h : Behind es cs) (hr : GoesOn closings r) : GoesOn stops (cs ++ r) := by
  cases h with
  | nil => exact fun c hc => List.mem_append_left _ (hr c hc)
  | cons hgap hfirst hrest =>
    intro c hc
    rw [List.append_assoc, List.append_assoc] at hc
    exact List.mem_append_right _ (hgap.goesOn c hc)

mutual

/-- An expression and the text behind it are determined by the text that they make together. -/
theorem Written.unique : ∀ (e : SExpr) {e' : SExpr} {cs cs' r r' : List Char},
    e.Legible → e'.Legible → Written e cs → Written e' cs' → GoesOn stops r → GoesOn stops r' →
      cs ++ r = cs' ++ r' → e = e' ∧ r = r'
  | .word w, _, _, _, _, _, hw, he', .word _, h', hr, hr', heq => by
    rw [Legible] at hw
    cases h' with
    | word w' =>
      rw [Legible] at he'
      obtain ⟨rfl, hrest⟩ := hw.unique he' hr hr' heq
      exact ⟨rfl, hrest⟩
    | quoted s' => exact absurd heq (hw.ne_cons (by decide))
    | list hfirst hbehind => exact absurd heq (hw.ne_cons (opening_mem_delimiters _))
  | .quoted s, _, _, _, _, _, hs, he', .quoted _, h', hr, hr', heq => by
    rw [Legible] at hs
    cases h' with
    | word w' =>
      rw [Legible] at he'
      exact absurd heq.symm (he'.ne_cons (by decide))
    | quoted s' =>
      rw [Legible] at he'
      obtain ⟨rfl, hrest⟩ := hs.unique he' hr hr' (by simpa using heq)
      exact ⟨rfl, hrest⟩
    | list hfirst hbehind => exact absurd (List.cons.inj heq).1.symm (Bracket.opening_ne_quote _)
  | .list b (e₁ :: es), _, _, _, _, _, hl, he', .list hfirst hbehind, h', hr, hr', heq => by
    rw [Legible, LegibleAll] at hl
    cases h' with
    | word w' =>
      rw [Legible] at he'
      exact absurd heq.symm (he'.ne_cons (opening_mem_delimiters b))
    | quoted s' => exact absurd (List.cons.inj heq).1 (Bracket.opening_ne_quote b)
    | @list b' e₁' es' _ _ hfirst' hbehind' =>
      rw [Legible, LegibleAll] at he'
      simp only [List.cons_append, List.append_assoc, List.nil_append] at heq
      obtain ⟨hopening, heq⟩ := List.cons.inj heq
      obtain rfl := Bracket.opening_inj hopening
      obtain ⟨rfl, heq⟩ := Written.unique e₁ hl.1 he'.1 hfirst hfirst'
        (hbehind.goesOn (goesOn_closing b)) (hbehind'.goesOn (goesOn_closing b)) heq
      obtain ⟨rfl, heq⟩ := Behind.unique es hl.2 he'.2 hbehind hbehind' (goesOn_closing b)
        (goesOn_closing b) heq
      exact ⟨rfl, (List.cons.inj heq).2⟩

/-- So are the items up to the closing bracket. -/
theorem Behind.unique : ∀ (es : List SExpr) {es' : List SExpr} {cs cs' r r' : List Char},
    LegibleAll es → LegibleAll es' → Behind es cs → Behind es' cs' → GoesOn closings r →
      GoesOn closings r' → cs ++ r = cs' ++ r' → es = es' ∧ r = r'
  | [], _, _, _, _, _, _, _, .nil, h', hr, hr', heq => by
    cases h' with
    | nil => exact ⟨rfl, heq⟩
    | cons hgap hfirst hrest =>
      rw [List.append_assoc, List.append_assoc] at heq
      exact absurd heq (hgap.ne_append hr)
  | e :: es, _, _, _, _, _, hl, hl', .cons hgap hfirst hrest, h', hr, hr', heq => by
    cases h' with
    | nil =>
      rw [List.append_assoc, List.append_assoc] at heq
      exact absurd heq.symm (hgap.ne_append hr')
    | cons hgap' hfirst' hrest' =>
      simp only [List.append_assoc] at heq
      obtain ⟨-, heq⟩ := hgap.unique hgap' (hfirst.not_blank hl.1) (hfirst'.not_blank hl'.1) heq
      obtain ⟨rfl, heq⟩ := Written.unique e hl.1 hl'.1 hfirst hfirst' (hrest.goesOn hr)
        (hrest'.goesOn hr') heq
      obtain ⟨rfl, heq⟩ := Behind.unique es hl.2 hl'.2 hrest hrest' hr hr' heq
      exact ⟨rfl, heq⟩

end

/-! ## Items in a row -/

/-- The characters are a text of the items, with nothing in front of the first one. -/
inductive InRow : List SExpr → List Char → Prop where
  | mk {e : SExpr} {es : List SExpr} {first rest : List Char} :
    Written e first → Behind es rest → InRow (e :: es) (first ++ rest)

variable {es' : List SExpr} {cs' : List Char}

theorem Behind.append (h : Behind es cs) (h' : Behind es' cs') : Behind (es ++ es') (cs ++ cs') := by
  induction es generalizing cs with
  | nil =>
    cases h
    exact h'
  | cons e es ih =>
    cases h with
    | cons hgap hfirst hrest =>
      rw [List.append_assoc _ _ cs']
      exact .cons hgap hfirst (ih hrest)

theorem InRow.single (h : Written e cs) : InRow [e] cs := by
  have hrow := InRow.mk h .nil
  rwa [List.append_nil] at hrow

theorem InRow.append (h : InRow es cs) (h' : Behind es' cs') : InRow (es ++ es') (cs ++ cs') := by
  cases h with
  | mk hfirst hrest =>
    rw [List.append_assoc]
    exact .mk hfirst (hrest.append h')

theorem InRow.behind (h : InRow es cs) {gap : List Char} (hgap : Gap gap) : Behind es (gap ++ cs) := by
  cases h with
  | mk hfirst hrest =>
    rw [← List.append_assoc]
    exact .cons hgap hfirst hrest

theorem InRow.list (h : InRow es cs) (b : Bracket) :
    Written (.list b es) (b.opening :: (cs ++ [b.closing])) := by
  cases h with
  | mk hfirst hrest => exact .list hfirst hrest

/-- No text is that of two rows. -/
theorem InRow.unique (h : InRow es cs) (h' : InRow es' cs) (hes : LegibleAll es) (hes' : LegibleAll es') :
    es = es' := by
  have hend : GoesOn stops [] := nofun
  have hl : (SExpr.list .round es).Legible := hes
  have hl' : (SExpr.list .round es').Legible := hes'
  obtain ⟨hlist, -⟩ := Written.unique _ hl hl' (h.list .round) (h'.list .round) hend hend rfl
  exact (SExpr.list.inj hlist).2

end SExpr
end Clausal
