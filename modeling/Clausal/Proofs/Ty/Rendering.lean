import Clausal.Proofs.Substitution.Distinct
import Clausal.Proofs.Text.LetterCase
import Clausal.Proofs.Tree.Rendering
import Clausal.Proofs.Ty.Traversal
import Clausal.Ty.Printer

/-!
# Printed types tell types apart

The text of a type is a text of a row of items: words, arrows, and parentheses around rows of their own. A
function that is a domain stands in parentheses, so the first arrow of a row is the one behind its domain;
an argument of more than one word stands in parentheses, so each item behind a constructor is one argument.
The type is found again in the row, and the row in any text of it, on pages of any width. A word is a
variable or a constructor by its first character, and variables of one substitution have different names.
-/
namespace Clausal

open SExpr Doc

/-! ## Names in types -/

/-- The characters of identifiers, the dots of qualified names, and the mark of anonymous variables. -/
def isTypeNameChar (c : Char) : Bool :=
  isNameChar c || c == '.' || c == '?'

/-- The name has no other characters. -/
def PlainName (n : String) : Prop :=
  n.toList.all isTypeNameChar = true

/-- The name starts with an uppercase character. -/
def Capitalized (n : String) : Prop :=
  n.toList.head?.any Text.isUppercase = true

instance (n : String) : Decidable (PlainName n) :=
  inferInstanceAs (Decidable (_ = true))

instance (n : String) : Decidable (Capitalized n) :=
  inferInstanceAs (Decidable (_ = true))

/-- The variable as the substitution made it, with the name it was given. -/
def Substitution.Made (s : Substitution) (v : Var) : Prop :=
  s.names[v.index]? = some v.name

instance (s : Substitution) (v : Var) : Decidable (s.Made v) :=
  inferInstanceAs (Decidable (_ = _))

namespace Ty

mutual

/-- Every occurrence of a constructor, from left to right. -/
def constrs : Ty → List String
  | .var _ => []
  | .named n ts => n :: constrsAll ts
  | .fn d c => constrs d ++ constrs c

def constrsAll : List Ty → List String
  | [] => []
  | t :: ts => constrs t ++ constrsAll ts

end

/-- The type is made of variables of the substitution and of capitalized constructors, all of them with
plain names. -/
structure PlainOver (t : Ty) (s : Substitution) : Prop where
  vars : ∀ v ∈ t.occurrences, s.Made v ∧ PlainName v.name
  constrs : ∀ n ∈ t.constrs, Capitalized n ∧ PlainName n

instance (t : Ty) (s : Substitution) : Decidable (t.PlainOver s) :=
  decidable_of_iff
    ((∀ v ∈ t.occurrences, s.Made v ∧ PlainName v.name) ∧ ∀ n ∈ t.constrs, Capitalized n ∧ PlainName n)
    ⟨fun ⟨hvars, hconstrs⟩ => ⟨hvars, hconstrs⟩, fun h => ⟨h.vars, h.constrs⟩⟩

variable {s : Substitution} {v w : Var} {t u d c : Ty} {ts us : List Ty} {n : String}

theorem constrsAll_eq_flatMap : constrsAll ts = ts.flatMap constrs := by
  induction ts with
  | nil => rfl
  | cons t ts ih => rw [constrsAll, ih, List.flatMap_cons]

theorem PlainOver.var (h : (Ty.var v).PlainOver s) : s.Made v ∧ PlainName v.name :=
  h.vars v (mem_occurrences_var.mpr rfl)

theorem PlainOver.named (h : (Ty.named n ts).PlainOver s) :
    (Capitalized n ∧ PlainName n) ∧ ∀ t ∈ ts, t.PlainOver s := by
  refine ⟨h.constrs n (List.mem_cons_self), fun t ht => ⟨fun v hv => ?_, fun m hm => ?_⟩⟩
  · exact h.vars v (mem_occurrences_named.mpr ⟨t, ht, hv⟩)
  · have hmem : m ∈ constrsAll ts := by
      rw [constrsAll_eq_flatMap]
      exact List.mem_flatMap.mpr ⟨t, ht, hm⟩
    exact h.constrs m (List.mem_cons_of_mem n hmem)

theorem PlainOver.fn (h : (Ty.fn d c).PlainOver s) : d.PlainOver s ∧ c.PlainOver s := by
  constructor
  · exact ⟨fun v hv => h.vars v (mem_occurrences_fn.mpr (.inl hv)),
      fun m hm => h.constrs m (List.mem_append_left _ hm)⟩
  · exact ⟨fun v hv => h.vars v (mem_occurrences_fn.mpr (.inr hv)),
      fun m hm => h.constrs m (List.mem_append_right _ hm)⟩

end Ty

variable {s : Substitution} {v w : Var} {n : String}

theorem PlainName.not_mem {c : Char} (h : PlainName n) (hc : isTypeNameChar c = false) : c ∉ n.toList := by
  intro hmem
  rw [List.all_eq_true.mp h c hmem] at hc
  cases hc

theorem PlainName.ne_arrow (h : PlainName n) : n ≠ "->" := by
  rintro rfl
  exact absurd h (by decide)

theorem PlainName.spelled (h : PlainName n) (hne : n.toList ≠ []) : SExpr.Spelled n := by
  have hdelimiters : ∀ c ∈ delimiters, isTypeNameChar c = false := List.all_iff_forall_prop.mp (by decide)
  exact ⟨hne, fun c hc hd => h.not_mem (hdelimiters c hd) hc⟩

theorem Capitalized.toList_ne_nil (h : Capitalized n) : n.toList ≠ [] := by
  intro he
  rw [Capitalized, he] at h
  cases h

/-- A variable has a name, and no constructor could have it. -/
theorem Substitution.Distinct.first_of_made (hs : s.Distinct) (hv : s.Made v) :
    v.name.toList ≠ [] ∧ ¬ Capitalized v.name := by
  rcases hs.spelled v.name (List.mem_of_getElem? hv) with hname | ⟨k, -, hname⟩
  · rw [checkVarName] at hname
    cases hcs : v.name.toList with
    | nil =>
      rw [hcs] at hname
      cases hname
    | cons c cs =>
      have hlower : Text.isLowercase c = true := by
        by_contra hc
        simp [hcs, hc] at hname
      refine ⟨List.cons_ne_nil c cs, fun hcap => ?_⟩
      rw [Capitalized, hcs] at hcap
      have hupper : Text.isUppercase c = true := by simpa using hcap
      rw [Text.isUppercase_of_isLowercase hlower] at hupper
      cases hupper
  · have hmark : Text.isUppercase '?' = false := Text.isUppercase_of_lt (by decide)
    rw [Capitalized, hname, Substitution.toList_freshName]
    exact ⟨List.cons_ne_nil _ _, by simp [hmark]⟩

theorem Substitution.Distinct.eq_of_name_eq (hs : s.Distinct) (hv : s.Made v) (hw : s.Made w)
    (h : v.name = w.name) : v = w := by
  obtain ⟨hi, hvi⟩ := List.getElem?_eq_some_iff.mp hv
  obtain ⟨hj, hwj⟩ := List.getElem?_eq_some_iff.mp hw
  have hindex : v.index = w.index := hs.nodup.getElem_inj_iff.mp (hvi.trans (h.trans hwj.symm))
  cases v
  cases w
  exact congrArg₂ Var.mk hindex h

/-! ## The row of a type -/

namespace Ty

/-- Items in parentheses, if asked for, are one item. -/
def enclosedItems (wanted : Bool) (es : List SExpr) : List SExpr :=
  if wanted then [.list .round es] else es

def arrow : SExpr :=
  .word "->"

mutual

/-- The items that a type is printed as. -/
def items : Ty → List SExpr
  | .var v => [.word v.name]
  | .named n ts => .word n :: argItems ts
  | .fn d c => enclosedItems d.isFn (items d) ++ arrow :: items c

def argItems : List Ty → List SExpr
  | [] => []
  | t :: ts => enclosedItems t.isCompound (items t) ++ argItems ts

end

variable {s : Substitution} {v w : Var} {t u d c : Ty} {ts us : List Ty} {cs : List Char} {b b' : Bool}
  {es es' : List SExpr}

theorem inRow_parenthesized {doc : Doc} (h : (parenthesized b doc).Lays cs)
    (hrow : ∀ {ds}, doc.Lays ds → InRow es ds) : InRow (enclosedItems b es) cs := by
  cases b with
  | false => exact hrow h
  | true =>
    obtain ⟨ds, hd, rfl⟩ := lays_enclosed.mp h
    exact .single ((hrow hd).list .round)

mutual

/-- Every text of a type's document is a text of its row. -/
theorem inRow_items : ∀ (t : Ty) {cs : List Char}, t.toDoc.Lays cs → InRow t.items cs
  | .var _, _, h => .single (written_word h)
  | .named n ts, _, h => by
    rw [toDoc] at h
    obtain ⟨first, behind, hfirst, hbehind, rfl⟩ := lays_separated.mp h
    exact .mk (written_word hfirst) (behind_argItems ts hbehind)
  | .fn d c, _, h => by
    rw [toDoc] at h
    obtain ⟨_, _, ⟨_, gap, ⟨ds, _, hd, rfl, rfl⟩, hgap, rfl⟩, hc, rfl⟩ := h
    have hcodomain : Behind (items c) _ := (inRow_items c hc).behind (gap_line hgap)
    have hdomain := inRow_parenthesized hd (inRow_items d)
    have hrow := hdomain.append (.cons gap_space (.word "->") hcodomain)
    simpa [items, arrow] using hrow

theorem behind_argItems : ∀ (ts : List Ty) {cs : List Char},
    LaysBehind (.text " ") (argDocs ts) cs → Behind (argItems ts) cs
  | [], _, h => by
    obtain rfl := h
    exact .nil
  | t :: ts, _, h => by
    obtain ⟨_, first, rest, rfl, hfirst, hrest, rfl⟩ := h
    have harg := inRow_parenthesized hfirst (inRow_items t)
    exact (harg.behind gap_space).append (behind_argItems ts hrest)

end

/-! ## A row is read back -/

theorem legibleAll_append : LegibleAll (es ++ es') ↔ LegibleAll es ∧ LegibleAll es' := by
  induction es with
  | nil => simp [LegibleAll]
  | cons e es ih => rw [List.cons_append, LegibleAll, LegibleAll, ih, and_assoc]

theorem legibleAll_enclosedItems (h : LegibleAll es) : LegibleAll (enclosedItems b es) := by
  cases b with
  | false => exact h
  | true => exact ⟨h, trivial⟩

mutual

theorem legibleAll_items (hs : s.Distinct) : ∀ t : Ty, t.PlainOver s → LegibleAll t.items
  | .var v, h => ⟨legible_word (h.var.2.spelled (hs.first_of_made h.var.1).1), trivial⟩
  | .named n ts, h =>
    ⟨legible_word (h.named.1.2.spelled h.named.1.1.toList_ne_nil), legibleAll_argItems hs ts h.named.2⟩
  | .fn d c, h => by
    have harrow : Legible arrow := legible_word (by decide)
    have hdomain := legibleAll_enclosedItems (b := d.isFn) (legibleAll_items hs d h.fn.1)
    exact legibleAll_append.mpr ⟨hdomain, harrow, legibleAll_items hs c h.fn.2⟩

theorem legibleAll_argItems (hs : s.Distinct) :
    ∀ ts : List Ty, (∀ t ∈ ts, t.PlainOver s) → LegibleAll (argItems ts)
  | [], _ => trivial
  | t :: ts, h => by
    obtain ⟨ht, hts⟩ := List.forall_mem_cons.mp h
    exact legibleAll_append.mpr
      ⟨legibleAll_enclosedItems (legibleAll_items hs t ht), legibleAll_argItems hs ts hts⟩

end

/-- Without parentheses the row of a type begins with a word. -/
theorem exists_items_of_not_isFn (h : t.isFn = false) : ∃ n rest, t.items = .word n :: rest := by
  cases t with
  | var v => exact ⟨_, _, rfl⟩
  | named n ts => exact ⟨_, _, rfl⟩
  | fn d c => cases h

/-- An argument is one item. -/
theorem exists_argItem (t : Ty) : ∃ e, enclosedItems t.isCompound t.items = [e] := by
  cases t with
  | var v => exact ⟨_, rfl⟩
  | named n ts =>
    cases ts with
    | nil => exact ⟨_, rfl⟩
    | cons t ts => exact ⟨_, rfl⟩
  | fn d c => exact ⟨_, rfl⟩

theorem not_isFn_of_not_isCompound (h : t.isCompound = false) : t.isFn = false := by
  cases t with
  | var v => rfl
  | named n ts => rfl
  | fn d c => cases h

/-- Parentheses are told from a row that begins with a word. -/
theorem enclosedItems_inj (hb : b = false → t.isFn = false) (hb' : b' = false → u.isFn = false)
    (h : enclosedItems b t.items = enclosedItems b' u.items) : t.items = u.items := by
  cases b with
  | false =>
    cases b' with
    | false => exact h
    | true =>
      obtain ⟨n, rest, hitems⟩ := exists_items_of_not_isFn (hb rfl)
      rw [enclosedItems, hitems] at h
      cases h
  | true =>
    cases b' with
    | false =>
      obtain ⟨n, rest, hitems⟩ := exists_items_of_not_isFn (hb' rfl)
      rw [enclosedItems, enclosedItems, hitems] at h
      cases h
    | true => exact (SExpr.list.inj (List.cons.inj h).1).2

/-- No argument is an arrow. -/
theorem arrow_not_mem_argItems (h : ∀ t ∈ ts, t.PlainOver s) : arrow ∉ argItems ts := by
  induction ts with
  | nil => exact List.not_mem_nil
  | cons t ts ih =>
    obtain ⟨ht, hts⟩ := List.forall_mem_cons.mp h
    rw [argItems, List.mem_append]
    rintro (hmem | hmem)
    · cases t with
      | var v =>
        have he := SExpr.word.inj (List.mem_singleton.mp hmem)
        exact ht.var.2.ne_arrow he.symm
      | named n us =>
        cases us with
        | nil =>
          have he := SExpr.word.inj (List.mem_singleton.mp hmem)
          exact ht.named.1.2.ne_arrow he.symm
        | cons u us => cases List.mem_singleton.mp hmem
      | fn d c => cases List.mem_singleton.mp hmem
    · exact ih hts hmem

theorem arrow_not_mem_items (ht : t.PlainOver s) (h : t.isFn = false) : arrow ∉ t.items := by
  cases t with
  | var v =>
    intro hmem
    exact ht.var.2.ne_arrow (SExpr.word.inj (List.mem_singleton.mp hmem)).symm
  | named n ts =>
    intro hmem
    rcases List.mem_cons.mp hmem with he | hmem
    · exact ht.named.1.2.ne_arrow (SExpr.word.inj he).symm
    · exact arrow_not_mem_argItems ht.named.2 hmem
  | fn d c => cases h

/-- The first arrow of a function is the one behind its domain. -/
theorem arrow_not_mem_domain (hd : d.PlainOver s) : arrow ∉ enclosedItems d.isFn d.items := by
  cases h : d.isFn with
  | false => exact arrow_not_mem_items hd h
  | true =>
    intro hmem
    cases List.mem_singleton.mp hmem

theorem isFn_eq_of_items_eq (ht : t.PlainOver s) (hu : u.PlainOver s) (h : t.items = u.items) :
    t.isFn = u.isFn := by
  have hmem {t : Ty} (ht : t.PlainOver s) : arrow ∈ t.items ↔ t.isFn = true := by
    constructor
    · intro hmem
      by_contra hfn
      exact arrow_not_mem_items ht (Bool.eq_false_iff.mpr hfn) hmem
    · intro hfn
      cases t with
      | fn d c => exact List.mem_append_right _ List.mem_cons_self
      | _ => cases hfn
  rw [Bool.eq_iff_iff, ← hmem ht, ← hmem hu, h]

/-- Where a list is split at the first occurrence of a member, the parts are determined. -/
theorem append_cons_inj_of_first {α : Type} {a : α} {xs ys r r' : List α} (hxs : a ∉ xs) (hys : a ∉ ys)
    (h : xs ++ a :: r = ys ++ a :: r') : xs = ys ∧ r = r' := by
  rcases List.append_eq_append_iff.mp h with ⟨zs, hlong, hrest⟩ | ⟨zs, hlong, hrest⟩
  · cases zs with
    | nil => exact ⟨by simpa using hlong.symm, (List.cons.inj hrest).2⟩
    | cons z zs =>
      obtain ⟨rfl, -⟩ := List.cons.inj hrest
      exact absurd (hlong ▸ List.mem_append_right _ List.mem_cons_self) hys
  · cases zs with
    | nil => exact ⟨by simpa using hlong, (List.cons.inj hrest).2.symm⟩
    | cons z zs =>
      obtain ⟨rfl, -⟩ := List.cons.inj hrest
      exact absurd (hlong ▸ List.mem_append_right _ List.mem_cons_self) hxs

mutual

/-- Two types with one row are the same: the recursion is on the first of them. -/
theorem items_inj (hs : s.Distinct) : ∀ t u : Ty, t.PlainOver s → u.PlainOver s → t.items = u.items → t = u
  | .var v, .var w, ht, hu, h => by
    have hname : v.name = w.name := SExpr.word.inj (List.cons.inj h).1
    rw [hs.eq_of_name_eq ht.var.1 hu.var.1 hname]
  | .var v, .named n us, ht, hu, h => by
    have hname : v.name = n := SExpr.word.inj (List.cons.inj h).1
    exact absurd (hname ▸ hu.named.1.1) (hs.first_of_made ht.var.1).2
  | .named n ts, .var w, ht, hu, h => by
    have hname : n = w.name := SExpr.word.inj (List.cons.inj h).1
    exact absurd (hname ▸ ht.named.1.1) (hs.first_of_made hu.var.1).2
  | .named n ts, .named m us, ht, hu, h => by
    have hname : n = m := SExpr.word.inj (List.cons.inj h).1
    rw [hname, argItems_inj hs ts us ht.named.2 hu.named.2 (List.cons.inj h).2]
  | .fn d c, .fn d' c', ht, hu, h => by
    obtain ⟨hd, hc⟩ := ht.fn
    obtain ⟨hd', hc'⟩ := hu.fn
    obtain ⟨hdomain, hcodomain⟩ :=
      append_cons_inj_of_first (arrow_not_mem_domain hd) (arrow_not_mem_domain hd') h
    rw [items_inj hs d d' hd hd' (enclosedItems_inj id id hdomain), items_inj hs c c' hc hc' hcodomain]
  | .var _, .fn _ _, ht, hu, h => nomatch isFn_eq_of_items_eq ht hu h
  | .named _ _, .fn _ _, ht, hu, h => nomatch isFn_eq_of_items_eq ht hu h
  | .fn _ _, .var _, ht, hu, h => nomatch isFn_eq_of_items_eq ht hu h
  | .fn _ _, .named _ _, ht, hu, h => nomatch isFn_eq_of_items_eq ht hu h

theorem argItems_inj (hs : s.Distinct) : ∀ ts us : List Ty, (∀ t ∈ ts, t.PlainOver s) →
    (∀ u ∈ us, u.PlainOver s) → argItems ts = argItems us → ts = us
  | [], [], _, _, _ => rfl
  | [], u :: us, _, _, h => by
    obtain ⟨e, he⟩ := exists_argItem u
    rw [argItems, argItems, he] at h
    cases h
  | t :: ts, [], _, _, h => by
    obtain ⟨e, he⟩ := exists_argItem t
    rw [argItems, argItems, he] at h
    cases h
  | t :: ts, u :: us, ht, hu, h => by
    obtain ⟨ht, hts⟩ := List.forall_mem_cons.mp ht
    obtain ⟨hu, hus⟩ := List.forall_mem_cons.mp hu
    obtain ⟨e, he⟩ := exists_argItem t
    obtain ⟨e', he'⟩ := exists_argItem u
    have hlength : (enclosedItems t.isCompound t.items).length = (enclosedItems u.isCompound u.items).length := by
      rw [he, he']
      rfl
    obtain ⟨harg, hrest⟩ := List.append_inj h hlength
    have hitems := enclosedItems_inj not_isFn_of_not_isCompound not_isFn_of_not_isCompound harg
    rw [items_inj hs t u ht hu hitems, argItems_inj hs ts us hts hus hrest]

end

/-! ## Texts on pages of any width -/

/-- No text is laid out for two types. -/
theorem eq_of_lays (hs : s.Distinct) (ht : t.PlainOver s) (hu : u.PlainOver s) (htext : t.toDoc.Lays cs)
    (hutext : u.toDoc.Lays cs) : t = u := by
  have hrow : t.items = u.items :=
    (inRow_items t htext).unique (inRow_items u hutext) (legibleAll_items hs t ht) (legibleAll_items hs u hu)
  exact items_inj hs t u ht hu hrow

theorem level_name {n : String} (h : PlainName n) : (Doc.text n).Level :=
  h.not_mem (by decide)

theorem level_parenthesized {doc : Doc} (h : doc.Level) : (parenthesized b doc).Level := by
  have hopening : (Doc.text "(").Level := by decide
  have hclosing : (Doc.text ")").Level := by decide
  cases b with
  | false => exact h
  | true => exact ⟨⟨hopening, h⟩, hclosing⟩

mutual

/-- A type has line breaks only behind its arrows, where there could be blanks, and none is indented. -/
theorem level_toDoc : ∀ t : Ty, t.PlainOver s → t.toDoc.Level
  | .var v, h => level_name h.var.2
  | .named n ts, h => by
    have hblank : (Doc.text " ").Level := by decide
    rw [toDoc]
    exact level_separated hblank (level_name h.named.1.2) (level_argDocs ts h.named.2)
  | .fn d c, h => by
    have harrow : (Doc.text " ->").Level := by decide
    have hdomain := level_parenthesized (b := d.isFn) (level_toDoc d h.fn.1)
    rw [toDoc]
    exact ⟨⟨⟨hdomain, harrow⟩, trivial⟩, level_toDoc c h.fn.2⟩

theorem level_argDocs : ∀ ts : List Ty, (∀ t ∈ ts, t.PlainOver s) → ∀ doc ∈ argDocs ts, doc.Level
  | [], _ => List.forall_mem_nil _
  | t :: ts, h => by
    obtain ⟨ht, hts⟩ := List.forall_mem_cons.mp h
    exact List.forall_mem_cons.mpr ⟨level_parenthesized (level_toDoc t ht), level_argDocs ts hts⟩

end

/-- Two types over one substitution are shown by the same text only if they are the same type. So it is on
pages of any two widths, and even if line breaks and blanks are not told apart. -/
theorem rendered_inj (hs : Substitution.Reachable s) (ht : t.PlainOver s) (hu : u.PlainOver s) :
    (t.text = u.text ↔ t = u) ∧ ∀ page page' : Nat,
      unbroken (t.toDoc.renderWithin page) = unbroken (u.toDoc.renderWithin page') ↔ t = u := by
  have hpages (page page' : Nat) :
      unbroken (t.toDoc.renderWithin page) = unbroken (u.toDoc.renderWithin page') ↔ t = u := by
    rw [unbroken_renderWithin (level_toDoc t ht), unbroken_renderWithin (level_toDoc u hu)]
    constructor
    · intro h
      have hutext : u.toDoc.Lays t.toDoc.flat.toList := h ▸ lays_flat u.toDoc
      exact eq_of_lays hs.distinct ht hu (lays_flat t.toDoc) hutext
    · rintro rfl
      rfl
  refine ⟨⟨fun h => (hpages pageWidth pageWidth).mp (congrArg unbroken h), ?_⟩, hpages⟩
  rintro rfl
  rfl

/-- The arrows of two types are nested to different sides, inside an argument and outside; on narrow pages all
or most of them end their lines. -/
theorem rendered_inj_nested_arrows :
    let a : Ty := .var ⟨0, "a"⟩
    let x : Ty := .var ⟨1, "?t0"⟩
    let list (t : Ty) : Ty := .named "Prelude.List" [t]
    let s := (Substitution.add {} "a").2.fresh.2
    let t := Ty.fn (.fn a (list (.fn (.fn a x) a))) x
    let u := Ty.fn a (.fn (list (.fn a (.fn x a))) x)
    t.toDoc.renderWithin 5 = "(a ->\nPrelude.List ((a ->\n?t0) ->\na)) ->\n?t0" ∧
      u.toDoc.renderWithin 20 = "a ->\nPrelude.List (a ->\n?t0 -> a) ->\n?t0" ∧
      Substitution.Reachable s ∧ t.PlainOver s ∧ u.PlainOver s ∧ t.text ≠ u.text ∧
      unbroken (t.toDoc.renderWithin 5) ≠ unbroken (u.toDoc.renderWithin 20) := by
  intro a x list s t u
  have hvar : Substitution.var? {} "a" = .ok (a, (Substitution.add {} "a").2) :=
    Substitution.var?_of_not_mem rfl (by decide)
  have hs : Substitution.Reachable s := (Relation.ReflTransGen.single (.var hvar)).tail .fresh
  have ht : t.PlainOver s := by decide +kernel
  have hu : u.PlainOver s := by decide +kernel
  have hne : t ≠ u := by decide
  obtain ⟨htext, hpages⟩ := rendered_inj hs ht hu
  exact ⟨by decide +kernel, by decide +kernel, hs, ht, hu, fun h => hne (htext.mp h),
    fun h => hne ((hpages 5 20).mp h)⟩

end Ty
end Clausal
