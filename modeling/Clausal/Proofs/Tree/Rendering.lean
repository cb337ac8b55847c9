import Clausal.Proofs.Doc.Layout
import Clausal.Proofs.Doc.SExpr
import Clausal.Tree.Printer
import Std.Data.String.ToInt

/-!
# Printed trees read back

The text of a tree is a text of a symbolic expression, whatever line breaks the layout chooses: a call is
the list of its parts, and each other form but a leaf is a list that begins with its keyword. From that
expression the tree is read back, if no name is a keyword or the spelling of a literal or an operation.

The content of a text literal is printed as it is. If it has a quote in front of a blank or of a closing
bracket, that quote can be taken for the end of the literal, and one text is printed for two trees. Where
every literal is sealed against that, the text determines the tree.
-/
namespace Clausal

open SExpr Doc

/-! ## The symbolic expression of a tree -/

def Literal.sexpr : Literal → SExpr
  | .unit => .list .round [.word "void"]
  | .bool true => .word "#t"
  | .bool false => .word "#f"
  | .int n => .word (toString n)
  | .float x => .word ("#i" ++ x.text)
  | .char c => .word ("#\\" ++ String.singleton c)
  | .text content => .quoted content

namespace SExpr

theorem gap_space : Gap [' '] :=
  ⟨by simp, by simp [blanks]⟩

theorem gap_beginsLine {cs : List Char} (h : BeginsLine cs) : Gap cs := by
  obtain ⟨n, rfl⟩ := h
  refine ⟨by simp, fun c hc => ?_⟩
  rcases List.mem_cons.mp hc with rfl | hc
  · decide
  · rw [List.eq_of_mem_replicate hc]
    decide

theorem gap_line {cs : List Char} (h : Doc.line.Lays cs) : Gap cs := by
  rcases h with rfl | h
  · exact gap_space
  · exact gap_beginsLine h

theorem written_word {w : String} {cs : List Char} (h : (Doc.text w).Lays cs) :
    Written (.word w) cs := by
  obtain rfl := lays_text.mp h
  exact .word w

/-- A list that begins with a keyword. -/
theorem written_form (keyword : String) {es : List SExpr} {rest : List Char} (h : Behind es rest) :
    Written (.list .round (.word keyword :: es)) ('(' :: (keyword.toList ++ rest ++ [')'])) :=
  .list (.word keyword) h

end SExpr

theorem Literal.written_sexpr : ∀ (l : Literal) {cs : List Char}, l.toDoc.Lays cs → Written l.sexpr cs
  | .unit, _, h => by
    obtain rfl := lays_text.mp h
    exact written_form "void" .nil
  | .bool true, _, h => written_word h
  | .bool false, _, h => written_word h
  | .int _, _, h => written_word h
  | .float _, _, h => written_word h
  | .char _, _, h => written_word h
  | .text content, _, h => by
    obtain ⟨_, hcontent, rfl⟩ := lays_enclosed.mp h
    obtain rfl := lays_text.mp hcontent
    exact .quoted content

namespace Tree

mutual

/-- The symbolic expression that a tree is printed as. -/
def sexpr : Tree → SExpr
  | .literal l => l.sexpr
  | .symbol n => .word n
  | .builtin b => .word b.identifier
  | .call callee args => .list .round (sexpr callee :: sexprs args)
  | .cond c t e => .list .round [.word "if", sexpr c, sexpr t, sexpr e]
  | .letIn n value body =>
    .list .round [.word "let", .list .square [.list .square [.word n, sexpr value]], sexpr body]
  | .access value f none => .list .round [.word "field", sexpr value, .word f]
  | .access value f (some tag) =>
    .list .round [.word "field", sexpr value, .word f, .word "#:tag", .word tag]
  | .isTag value tag => .list .round [.word "tag?", sexpr value, .word tag]
  | .fault m => .list .round [.word "fault", .word "non-exhaustive-match", .word m]

def sexprs : List Tree → List SExpr
  | [] => []
  | t :: ts => sexpr t :: sexprs ts

end

mutual

/-- Every text of a tree's document is a text of its symbolic expression. -/
theorem written_sexpr : ∀ (t : Tree) {cs : List Char}, t.toDoc.Lays cs → Written t.sexpr cs
  | .literal l, _, h => l.written_sexpr h
  | .symbol _, _, h => written_word h
  | .builtin _, _, h => written_word h
  -- each document is taken apart into its pieces, the last one first, and they are put together as a list
  | .call callee args, _, h => by
    rw [toDoc, lays_enclosed] at h
    obtain ⟨_, h, rfl⟩ := h
    obtain ⟨first, behind, hfirst, hbehind, rfl⟩ := lays_separated.mp h
    have hparts := Written.list (b := .round) (written_sexpr callee hfirst) (behind_sexprs args hbehind)
    simpa [sexpr, Bracket.opening, Bracket.closing] using hparts
  | .cond c t e, _, h => by
    rw [toDoc, lays_enclosed] at h
    obtain ⟨_, ⟨cs, _, hc, ⟨_, es, ⟨_, _, ⟨_, ts, ht₁, ht, rfl⟩, he₁, rfl⟩, he, rfl⟩, rfl⟩, rfl⟩ := h
    have hparts := written_form "if" (.cons gap_space (written_sexpr c hc)
      (.cons (gap_beginsLine ht₁) (written_sexpr t ht)
        (.cons (gap_beginsLine he₁) (written_sexpr e he) .nil)))
    simpa [sexpr] using hparts
  | .letIn n value body, _, h => by
    rw [toDoc, lays_enclosed] at h
    obtain ⟨_, ⟨_, _, ⟨_, _, ⟨_, vs, ⟨_, _, rfl, rfl, rfl⟩, hv, rfl⟩, rfl, rfl⟩,
      ⟨_, bs, hb₁, hb, rfl⟩, rfl⟩, rfl⟩ := h
    have hbinding : Written (.list .square [.word n, value.sexpr]) _ :=
      .list (.word n) (.cons gap_space (written_sexpr value hv) .nil)
    have hparts := written_form "let"
      (.cons gap_space (.list (b := .square) hbinding .nil)
        (.cons (gap_beginsLine hb₁) (written_sexpr body hb) .nil))
    simpa [sexpr, Bracket.opening, Bracket.closing] using hparts
  | .access value f none, _, h => by
    rw [toDoc, lays_enclosed] at h
    obtain ⟨_, ⟨_, _, ⟨vs, _, hv, rfl, rfl⟩, rfl, rfl⟩, rfl⟩ := h
    have hparts := written_form "field" (.cons gap_space (written_sexpr value hv)
      (.cons gap_space (.word f) .nil))
    simpa [sexpr] using hparts
  | .access value f (some tag), _, h => by
    rw [toDoc, lays_enclosed] at h
    obtain ⟨_, ⟨_, _, ⟨_, _, ⟨_, _, ⟨vs, _, hv, rfl, rfl⟩, rfl, rfl⟩, rfl, rfl⟩, rfl, rfl⟩, rfl⟩ := h
    have hparts := written_form "field" (.cons gap_space (written_sexpr value hv)
      (.cons gap_space (.word f) (.cons gap_space (.word "#:tag")
        (.cons gap_space (.word tag) .nil))))
    simpa [sexpr] using hparts
  | .isTag value tag, _, h => by
    rw [toDoc, lays_enclosed] at h
    obtain ⟨_, ⟨_, _, ⟨vs, _, hv, rfl, rfl⟩, rfl, rfl⟩, rfl⟩ := h
    have hparts := written_form "tag?" (.cons gap_space (written_sexpr value hv)
      (.cons gap_space (.word tag) .nil))
    simpa [sexpr] using hparts
  | .fault m, _, h => by
    rw [toDoc, lays_enclosed] at h
    obtain ⟨_, rfl, rfl⟩ := h
    have hparts := written_form "fault"
      (.cons gap_space (.word "non-exhaustive-match") (.cons gap_space (.word m) .nil))
    simpa [sexpr] using hparts

theorem behind_sexprs : ∀ (ts : List Tree) {cs : List Char},
    LaysBehind .line (toDocs ts) cs → Behind (sexprs ts) cs
  | [], _, h => by
    obtain rfl := h
    exact .nil
  | t :: ts, _, h => by
    obtain ⟨gap, first, rest, hgap, hfirst, hrest, rfl⟩ := h
    exact .cons (gap_line hgap) (written_sexpr t hfirst) (behind_sexprs ts hrest)

end

end Tree

/-! ## Words -/

/-- Letters, digits, underscores and percent signs. Everything beyond ASCII counts as a letter. -/
def isNameChar (c : Char) : Bool :=
  c.isAlphanum || c == '_' || c == '%' || 0x80 ≤ c.toNat

/-- The identifiers that are printed for something else than a name. -/
def reserved : List String :=
  ["if", "let", "field", "fault", "void", "and"]

/-- The names that are identifiers and stand for nothing else. -/
structure Identifier (n : String) : Prop where
  nonempty : n.toList ≠ []
  chars : n.toList.all isNameChar = true
  first : n.toList.head?.any Char.isDigit = false
  unreserved : n ∉ reserved

instance (n : String) : Decidable (Identifier n) :=
  decidable_of_iff
    (n.toList ≠ [] ∧ n.toList.all isNameChar = true ∧ n.toList.head?.any Char.isDigit = false ∧
      n ∉ reserved)
    ⟨fun ⟨hne, hchars, hfirst, hres⟩ => ⟨hne, hchars, hfirst, hres⟩,
      fun h => ⟨h.nonempty, h.chars, h.first, h.unreserved⟩⟩

theorem Identifier.spelled {n : String} (h : Identifier n) : SExpr.Spelled n := by
  have hdelimiters : ∀ c ∈ delimiters, isNameChar c = false := List.all_iff_forall_prop.mp (by decide)
  refine ⟨h.nonempty, fun c hc hd => ?_⟩
  have hname := List.all_eq_true.mp h.chars c hc
  rw [hdelimiters c hd] at hname
  cases hname

theorem spelled_of_isNat {w : String} (h : w.isNat = true) : SExpr.Spelled w := by
  have hdelimiters : ∀ c ∈ delimiters, ¬ (c.isDigit = true ∨ c = '_') :=
    List.all_iff_forall_prop.mp (by decide)
  obtain ⟨hne, hchars, -⟩ := String.isNat_iff.mp h
  exact ⟨fun he => hne (String.toList_eq_nil_iff.mp he), fun c hc hd => hdelimiters c hd (hchars c hc)⟩

theorem spelled_toString (n : Int) : SExpr.Spelled (toString n) := by
  have hint : (toString n).isInt = true := by simp
  rcases String.isInt_iff.mp hint with h | ⟨t, ht, h⟩
  · exact spelled_of_isNat h
  · have hs := spelled_of_isNat h
    rw [ht]
    refine ⟨by simp, fun c hc => ?_⟩
    rcases List.mem_cons.mp (by simpa using hc) with rfl | hc
    · decide
    · exact hs.2 c hc

/-- The first character is a digit or a sign. -/
def beginsNumber (w : String) : Bool :=
  w.toList.head?.any fun c => c == '-' || c.isDigit

theorem Identifier.beginsNumber {n : String} (h : Identifier n) : beginsNumber n = false := by
  cases hn : n.toList with
  | nil => exact absurd hn h.nonempty
  | cons c cs =>
    have hdigit := h.first
    have hchars := h.chars
    rw [hn] at hdigit hchars
    have hsign : c ≠ '-' := by
      rintro rfl
      simp [isNameChar] at hchars
    simpa [Clausal.beginsNumber, hn, hsign] using hdigit

theorem toInt?_eq_none {w : String} (h : beginsNumber w = false) : w.toInt? = none := by
  refine String.toInt?_eq_none (Bool.eq_false_iff.mpr fun hint => ?_)
  rcases String.isInt_iff.mp hint with hnat | ⟨t, rfl, -⟩
  · obtain ⟨hne, hchars, -, hfirst, -⟩ := String.isNat_iff.mp hnat
    cases hw : w.toList with
    | nil => exact hne (String.toList_eq_nil_iff.mp hw)
    | cons c cs =>
      rw [beginsNumber, hw] at h
      rw [hw] at hchars hfirst
      rcases hchars c List.mem_cons_self with hd | rfl
      · simp [hd] at h
      · exact hfirst rfl
  · simp [beginsNumber] at h

/-- The literals that are neither floating-point numbers nor characters. -/
def Literal.Plain : Literal → Prop
  | .float _ | .char _ => False
  | _ => True

/-- The plain literals whose end can be found, if they are texts. -/
def Literal.Legible : Literal → Prop
  | .text content => SExpr.Sealed content
  | l => l.Plain

theorem Literal.Legible.plain : ∀ {l : Literal}, l.Legible → l.Plain
  | .unit, _ | .bool _, _ | .int _, _ | .text _, _ => trivial

theorem SExpr.legible_word {w : String} (h : Spelled w) : (word w).Legible :=
  h

theorem Literal.Legible.sexpr : ∀ {l : Literal}, l.Legible → l.sexpr.Legible
  | .unit, _ => ⟨SExpr.legible_word (by decide), trivial⟩
  | .bool true, _ => SExpr.legible_word (by decide)
  | .bool false, _ => SExpr.legible_word (by decide)
  | .int n, _ => spelled_toString n
  | .text _, h => h

/-! ## Reading trees back -/

namespace SExpr

/-- The first items of the lists that are not calls. -/
def keywords : List String :=
  ["void", "if", "let", "field", "tag?", "fault"]

/-- The words that stand for something else than a name or a number. -/
def constants : List String :=
  ["#t", "#f", Builtin.equal.identifier, Builtin.and.identifier]

/-- What a word stands for. -/
def leaf (w : String) : Tree :=
  match w.toInt? with
  | some n => .literal (.int n)
  | none =>
    if w = "#t" then .literal (.bool true)
    else if w = "#f" then .literal (.bool false)
    else if w = Builtin.equal.identifier then .builtin .equal
    else if w = Builtin.and.identifier then .builtin .and
    else .symbol w

mutual

/-- The tree that a symbolic expression is printed for. -/
def tree : SExpr → Tree
  | .word w => leaf w
  | .quoted s => .literal (.text s)
  | .list _ [.word "void"] => .literal .unit
  | .list _ [.word "if", c, t, e] => .cond (tree c) (tree t) (tree e)
  | .list _ [.word "let", .list _ [.list _ [.word n, value]], body] =>
    .letIn n (tree value) (tree body)
  | .list _ [.word "field", value, .word f] => .access (tree value) f none
  | .list _ [.word "field", value, .word f, .word "#:tag", .word tag] =>
    .access (tree value) f (some tag)
  | .list _ [.word "tag?", value, .word tag] => .isTag (tree value) tag
  | .list _ [.word "fault", .word "non-exhaustive-match", .word m] => .fault m
  | .list _ (callee :: args) => .call (tree callee) (trees args)
  | .list _ [] => .literal .unit

def trees : List SExpr → List Tree
  | [] => []
  | e :: es => tree e :: trees es

end

/-- A list is a call unless it begins with a keyword. -/
theorem tree_call {b : Bracket} {callee : SExpr} {args : List SExpr}
    (h : ∀ k ∈ keywords, callee ≠ .word k) :
    (list b (callee :: args)).tree = .call callee.tree (trees args) := by
  have hk : ∀ k, callee = .word k → k ∉ keywords := fun k he hk => h k hk he
  rw [tree]
  all_goals intros; exact hk _ ‹_› (by decide)

theorem leaf_toString (n : Int) : leaf (toString n) = .literal (.int n) := by
  simp [leaf]

theorem leaf_symbol {w : String} (hfirst : beginsNumber w = false) (hne : w ∉ constants) : leaf w = .symbol w := by
  simp only [constants, List.mem_cons, List.not_mem_nil, or_false, not_or] at hne
  rw [leaf, toInt?_eq_none hfirst]
  simp [hne]

theorem leaf_keyword : ∀ k ∈ keywords, leaf k = .symbol k := by
  have hk : ∀ k ∈ keywords, beginsNumber k = false ∧ k ∉ constants := by decide
  exact fun k h => leaf_symbol (hk k h).1 (hk k h).2

theorem leaf_identifier {n : String} (h : Identifier n) : leaf n = .symbol n := by
  have hconstants : ∀ w ∈ constants, ¬ Identifier w := by decide
  exact leaf_symbol h.beginsNumber fun hmem => hconstants n hmem h

theorem tree_literal {l : Literal} (hl : l.Plain) : l.sexpr.tree = .literal l := by
  cases l with
  | unit => rfl
  | bool b =>
    have hnone : ∀ w ∈ ["#t", "#f"], w.toInt? = none := fun w hw => toInt?_eq_none (by
      revert w
      decide)
    cases b <;> simp [Literal.sexpr, tree, leaf, hnone]
  | int n => exact leaf_toString n
  | float x => exact hl.elim
  | char c => exact hl.elim
  | text content => rfl

theorem leaf_builtin (b : Builtin) : leaf b.identifier = .builtin b := by
  have hnone : b.identifier.toInt? = none := toInt?_eq_none (by cases b <;> decide)
  rw [leaf, hnone]
  cases b <;> simp [Builtin.identifier]

end SExpr

namespace Tree

mutual

/-- All literals of a tree have one property, and all its names another. -/
def Over (P : Literal → Prop) (Q : String → Prop) : Tree → Prop
  | .literal l => P l
  | .symbol n => Q n
  | .builtin _ => True
  | .call callee args => Over P Q callee ∧ OverAll P Q args
  | .cond c t e => Over P Q c ∧ Over P Q t ∧ Over P Q e
  | .letIn n value body => Q n ∧ Over P Q value ∧ Over P Q body
  | .access value f tag => Over P Q value ∧ Q f ∧ ∀ n ∈ tag, Q n
  | .isTag value tag => Over P Q value ∧ Q tag
  | .fault m => Q m

def OverAll (P : Literal → Prop) (Q : String → Prop) : List Tree → Prop
  | [] => True
  | t :: ts => Over P Q t ∧ OverAll P Q ts

end

mutual

/-- The symbolic expression of a tree says all about it. -/
theorem tree_sexpr {P : Literal → Prop} (hP : ∀ l, P l → l.Plain) :
    ∀ t : Tree, t.Over P Identifier → t.sexpr.tree = t
  | .literal l, h => tree_literal (hP l h)
  | .symbol n, h => leaf_identifier h
  | .builtin b, _ => leaf_builtin b
  | .call callee args, h => by
    have hcallee := tree_sexpr hP callee h.1
    have hkeyword : ∀ k ∈ keywords, callee.sexpr ≠ .word k := fun k hk he => by
      rw [he, SExpr.tree, leaf_keyword k hk] at hcallee
      subst hcallee
      have hnot : ∀ k ∈ keywords, ¬ Identifier k := by decide
      exact hnot k hk h.1
    rw [sexpr, tree_call hkeyword, hcallee, trees_sexprs hP args h.2]
  | .cond c t e, h => by
    rw [sexpr, SExpr.tree, tree_sexpr hP c h.1, tree_sexpr hP t h.2.1, tree_sexpr hP e h.2.2]
  | .letIn n value body, h => by
    rw [sexpr, SExpr.tree, tree_sexpr hP value h.2.1, tree_sexpr hP body h.2.2]
  | .access value f none, h => by rw [sexpr, SExpr.tree, tree_sexpr hP value h.1]
  | .access value f (some tag), h => by rw [sexpr, SExpr.tree, tree_sexpr hP value h.1]
  | .isTag value tag, h => by rw [sexpr, SExpr.tree, tree_sexpr hP value h.1]
  | .fault m, _ => by rw [sexpr, SExpr.tree]

theorem trees_sexprs {P : Literal → Prop} (hP : ∀ l, P l → l.Plain) :
    ∀ ts : List Tree, OverAll P Identifier ts → SExpr.trees (sexprs ts) = ts
  | [], _ => rfl
  | t :: ts, h => by rw [sexprs, SExpr.trees, tree_sexpr hP t h.1, trees_sexprs hP ts h.2]

end

mutual

theorem legible_sexpr : ∀ t : Tree, t.Over Literal.Legible Identifier → t.sexpr.Legible
  | .literal _, h => h.sexpr
  | .symbol _, h => h.spelled
  | .builtin b, _ => legible_word (by cases b <;> decide)
  | .call callee args, h => ⟨legible_sexpr callee h.1, legible_sexprs args h.2⟩
  | .cond c t e, h =>
    ⟨legible_word (by decide), legible_sexpr c h.1, legible_sexpr t h.2.1, legible_sexpr e h.2.2, trivial⟩
  | .letIn n value body, h =>
    ⟨legible_word (by decide), ⟨⟨h.1.spelled, legible_sexpr value h.2.1, trivial⟩, trivial⟩,
      legible_sexpr body h.2.2, trivial⟩
  | .access value _ none, h =>
    ⟨legible_word (by decide), legible_sexpr value h.1, h.2.1.spelled, trivial⟩
  | .access value _ (some tag), h =>
    ⟨legible_word (by decide), legible_sexpr value h.1, h.2.1.spelled, legible_word (by decide),
      (h.2.2 tag rfl).spelled, trivial⟩
  | .isTag value _, h =>
    ⟨legible_word (by decide), legible_sexpr value h.1, h.2.spelled, trivial⟩
  | .fault _, h =>
    ⟨legible_word (by decide), legible_word (by decide), Identifier.spelled h, trivial⟩

theorem legible_sexprs :
    ∀ ts : List Tree, OverAll Literal.Legible Identifier ts → LegibleAll (sexprs ts)
  | [], _ => trivial
  | t :: ts, h => ⟨legible_sexpr t h.1, legible_sexprs ts h.2⟩

end

variable {t u : Tree}

/-- No text is laid out for two trees, on pages of any width and whatever lines are broken. -/
theorem eq_of_lays {cs : List Char} (ht : t.Over Literal.Legible Identifier)
    (hu : u.Over Literal.Legible Identifier) (htext : t.toDoc.Lays cs) (hutext : u.toDoc.Lays cs) :
    t = u := by
  have hend : GoesOn stops [] := fun c hc => nomatch hc
  have hexpr : t.sexpr = u.sexpr :=
    (Written.unique _ (legible_sexpr t ht) (legible_sexpr u hu) (written_sexpr t htext)
      (written_sexpr u hutext) hend hend rfl).1
  calc
    t = t.sexpr.tree := (tree_sexpr (fun _ => Literal.Legible.plain) t ht).symm
    _ = u.sexpr.tree := by rw [hexpr]
    _ = u := tree_sexpr (fun _ => Literal.Legible.plain) u hu

/-- Trees of identifiers and plain literals are printed alike only if they are the same, provided that no
text literal has a quote in front of a blank or of a closing bracket. -/
theorem text_inj (ht : t.Over Literal.Legible Identifier) (hu : u.Over Literal.Legible Identifier) :
    t.text = u.text ↔ t = u := by
  constructor
  · intro h
    have hutext : u.toDoc.Lays t.text.toList := h ▸ lays_render u.toDoc
    exact eq_of_lays ht hu (lays_render t.toDoc) hutext
  · rintro rfl
    rfl

/-- Quotes and brackets in texts, even at their ends, do not hide where a text ends. -/
theorem text_inj_quotes_inside :
    (letIn "x" (.literal (.text "\"a\"b\n(")) (call (.symbol "x") [.literal (.text ")\"")])).text ≠
      (letIn "x" (.literal (.text "\"a\"b")) (call (.symbol "x") [.literal (.text "\"")])).text := by
  have hleft : (letIn "x" (.literal (.text "\"a\"b\n("))
      (call (.symbol "x") [.literal (.text ")\"")])).Over Literal.Legible Identifier := by
    simp only [Over, OverAll, Literal.Legible]
    decide
  have hright : (letIn "x" (.literal (.text "\"a\"b"))
      (call (.symbol "x") [.literal (.text "\"")])).Over Literal.Legible Identifier := by
    simp only [Over, OverAll, Literal.Legible]
    decide
  rw [ne_eq, text_inj hleft hright]
  simp

/-- One text literal can be printed like two: a quote in it looks like the end of the first. -/
theorem exists_text_eq : ∃ t u : Tree, t.Over Literal.Plain Identifier ∧
    u.Over Literal.Plain Identifier ∧ t ≠ u ∧ t.text = u.text := by
  have hname : Identifier "f" := by decide
  refine ⟨call (.symbol "f") [.literal (.text "a"), .literal (.text "b")],
    call (.symbol "f") [.literal (.text "a\" \"b")], ?_, ?_, ?_, ?_⟩
  · exact ⟨hname, trivial, trivial, trivial⟩
  · exact ⟨hname, trivial, trivial⟩
  · simp
  · decide +kernel

end Tree
end Clausal
