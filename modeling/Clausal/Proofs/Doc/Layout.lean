import Clausal.Doc
import Mathlib.Data.List.Basic

/-!
# The texts of a document

What a document can look like, whatever the width of the page and the text around it: its pieces of text
as they are and in order, and for each of its line breaks a space or a new line with any indentation. What
is rendered is one of these texts. A fact that holds of all of them holds of the output, and no proof has
to follow which groups fit on their line.
-/
namespace Clausal.Doc

/-- A new line, indented by any number of columns. -/
def BeginsLine (cs : List Char) : Prop :=
  ∃ n, cs = '\n' :: List.replicate n ' '

/-- The characters are what the document looks like under some choice of its line breaks. -/
def Lays : Doc → List Char → Prop
  | .text content, cs => cs = content.toList
  | .line, cs => cs = [' '] ∨ BeginsLine cs
  | .hardline, cs => BeginsLine cs
  | .append d e, cs => ∃ ds es, d.Lays ds ∧ e.Lays es ∧ cs = ds ++ es
  | .nest _ d, cs => d.Lays cs
  | .group d, cs => d.Lays cs

theorem beginsLine_newline (n : Nat) : BeginsLine (newline n).toList :=
  ⟨n, by simp [newline]⟩

theorem lays_set (page : Nat) (d : Doc) (indent : Nat) (mode : Mode) (ps : List Pending) (column : Nat) :
    d.Lays (set page d indent mode ps column).1.toList := by
  induction d generalizing indent mode ps column with
  | text content => rfl
  | line =>
    cases mode with
    | flat => exact .inl (by simp [set])
    | broken => exact .inr (beginsLine_newline _)
  | hardline => exact beginsLine_newline _
  | append d e ihd ihe => exact ⟨_, _, ihd .., ihe .., String.toList_append⟩
  | nest n d ih => exact ih ..
  | group d ih =>
    cases mode with
    | flat => exact ih ..
    | broken => exact ih ..

theorem lays_render (d : Doc) : d.Lays d.render.toList :=
  lays_set pageWidth d 0 .broken [] 0

/-! ## One line -/

/-- The document on one line, as far as it may be set on one. -/
def flat : Doc → String
  | .text content => content
  | .line => " "
  | .hardline => "\n"
  | .append d e => flat d ++ flat e
  | .nest _ d => flat d
  | .group d => flat d

theorem lays_flat : ∀ d : Doc, d.Lays d.flat.toList
  | .text _ => rfl
  | .line => .inl rfl
  | .hardline => ⟨0, rfl⟩
  | .append d e => ⟨_, _, lays_flat d, lays_flat e, String.toList_append⟩
  | .nest _ d => lays_flat d
  | .group d => lays_flat d

/-- A text with a blank in the place of each line break. -/
def unbroken (text : String) : String :=
  text.map fun c => if c = '\n' then ' ' else c

/-- The document has no line break that must be there, and indents nothing. -/
def Level : Doc → Prop
  | .text content => '\n' ∉ content.toList
  | .line => True
  | .hardline => False
  | .append d e => Level d ∧ Level e
  | .nest _ _ => False
  | .group d => Level d

instance (content : String) : Decidable (text content).Level :=
  inferInstanceAs (Decidable ('\n' ∉ content.toList))

theorem level_separated {separator first : Doc} {rest : List Doc} (hsep : separator.Level)
    (hfirst : first.Level) (hrest : ∀ d ∈ rest, d.Level) : (separated separator first rest).Level := by
  induction rest generalizing first with
  | nil => exact hfirst
  | cons d rest ih =>
    obtain ⟨hd, hrest⟩ := List.forall_mem_cons.mp hrest
    exact ih ⟨⟨hfirst, hsep⟩, hd⟩ hrest

theorem unbroken_append (a b : String) : unbroken (a ++ b) = unbroken a ++ unbroken b := by
  simp only [unbroken, ← String.toList_inj, String.toList_map, String.toList_append, List.map_append]

theorem unbroken_of_not_mem {text : String} (h : '\n' ∉ text.toList) : unbroken text = text := by
  have hkept : ∀ c ∈ text.toList, (if c = '\n' then ' ' else c) = c := fun c hc =>
    if_neg fun he : c = '\n' => h (he ▸ hc)
  rw [← String.toList_inj, unbroken, String.toList_map, List.map_congr_left hkept, List.map_id']

theorem unbroken_newline : unbroken (newline 0) = " " := by
  rw [← String.toList_inj, unbroken, String.toList_map]
  rfl

theorem unbroken_set {page column : Nat} {mode : Mode} {ps : List Pending} {d : Doc} (hd : d.Level)
    (hps : ∀ p ∈ ps, p.indent = 0) : unbroken (set page d 0 mode ps column).1 = d.flat := by
  have hnext (ps : List Pending) (hps : ∀ p ∈ ps, p.indent = 0) : nextIndent 0 ps = 0 := by
    cases ps with
    | nil => rfl
    | cons p ps => exact hps p List.mem_cons_self
  induction d generalizing mode ps column with
  | text content => exact unbroken_of_not_mem hd
  | line =>
    cases mode with
    | flat =>
      have hblank : '\n' ∉ " ".toList := by decide
      exact unbroken_of_not_mem hblank
    | broken =>
      rw [set, hnext ps hps]
      exact unbroken_newline
  | hardline => exact hd.elim
  | append d e ihd ihe =>
    rw [set, unbroken_append, ihd hd.1 (List.forall_mem_cons.mpr ⟨rfl, hps⟩), ihe hd.2 hps, flat]
  | nest n d ih => exact hd.elim
  | group d ih =>
    cases mode with
    | flat => exact ih hd hps
    | broken => exact ih hd hps

/-- Pages of different widths make no other difference than line breaks. -/
theorem unbroken_renderWithin {d : Doc} (hd : d.Level) (page : Nat) :
    unbroken (d.renderWithin page) = d.flat :=
  unbroken_set hd (List.forall_mem_nil _)

/-! ## Documents made of documents -/

variable {d e : Doc} {cs : List Char}

theorem lays_append : (d ++ e).Lays cs ↔ ∃ ds es, d.Lays ds ∧ e.Lays es ∧ cs = ds ++ es :=
  Iff.rfl

theorem lays_text {content : String} : (text content).Lays cs ↔ cs = content.toList :=
  Iff.rfl

theorem lays_enclosed {opening closing : String} :
    (d.enclosed opening closing).Lays cs ↔
      ∃ ds, d.Lays ds ∧ cs = opening.toList ++ ds ++ closing.toList := by
  unfold enclosed
  rw [lays_append]
  constructor
  · rintro ⟨_, _, ⟨_, ds, rfl, hd, rfl⟩, rfl, rfl⟩
    exact ⟨ds, hd, rfl⟩
  · rintro ⟨ds, hd, rfl⟩
    exact ⟨_, _, ⟨_, ds, rfl, hd, rfl⟩, rfl, rfl⟩

/-- What stands behind the first of separated documents: each one behind a separator. -/
def LaysBehind (separator : Doc) : List Doc → List Char → Prop
  | [], cs => cs = []
  | d :: ds, cs => ∃ gap first rest,
      separator.Lays gap ∧ d.Lays first ∧ LaysBehind separator ds rest ∧ cs = gap ++ first ++ rest

theorem lays_separated {separator : Doc} {rest : List Doc} :
    (separated separator d rest).Lays cs ↔
      ∃ first behind, d.Lays first ∧ LaysBehind separator rest behind ∧ cs = first ++ behind := by
  induction rest generalizing d with
  | nil => simp [separated, LaysBehind]
  | cons e rest ih =>
    have hcons : separated separator d (e :: rest) = separated separator (d ++ separator ++ e) rest :=
      rfl
    rw [hcons, ih]
    constructor
    · rintro ⟨_, behind, ⟨_, es, ⟨ds, gap, hd, hgap, rfl⟩, he, rfl⟩, hrest, rfl⟩
      exact ⟨ds, gap ++ es ++ behind, hd, ⟨gap, es, behind, hgap, he, hrest, rfl⟩, by simp⟩
    · rintro ⟨ds, _, hd, ⟨gap, es, behind, hgap, he, hrest, rfl⟩, rfl⟩
      exact ⟨_, behind, ⟨_, es, ⟨ds, gap, hd, hgap, rfl⟩, he, rfl⟩, hrest, by simp⟩

end Clausal.Doc
