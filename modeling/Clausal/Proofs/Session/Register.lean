import Clausal.Proofs.Interner
import Clausal.Proofs.Session.Variables

/-!
# Names and numbers of variables

The substitution of a session once more, in the parts that it can be kept in: a table of classes, the names of
the variables by their numbers, the variables of programs by their names, a count of the anonymous ones, and an
interner that is used for other texts as well. Each request changes these parts one by one. They stay in step,
so that the answers are those of the session; a variable is known by its name as well as by its number.
-/
namespace Clausal

open Session (Request Answer History serve)

/-- What the table of classes keeps of one variable. -/
structure Register.Node where
  root : Nat
  rank : Nat
  bound : Option Ty
deriving Inhabited, Repr

/-- A substitution in its parts, with the interner that its names are from. -/
structure Register where
  interner : Interner := {}
  nodes : Array Register.Node := #[]
  /-- The names of all variables, by their numbers. -/
  names : Array Symbol := #[]
  /-- The numbers of the variables of programs. -/
  byName : List (Symbol × Nat) := []
  freshCount : Nat := 0
deriving Inhabited, Repr

namespace Register

def size (r : Register) : Nat :=
  r.names.size

def nameOf? (r : Register) (index : Nat) : Option Symbol :=
  r.names[index]?

def vars (r : Register) : List Var :=
  r.names.toList.mapIdx fun i a => ⟨i, r.interner.display a⟩

def node (c : Cell) : Node :=
  ⟨c.root, c.rank, c.bound⟩

def cell (r : Register) (entry : Node × Symbol) : Cell :=
  ⟨r.interner.display entry.2, entry.1.root, entry.1.rank, entry.1.bound⟩

/-- The table, each variable with its name. -/
def subst (r : Register) : Substitution where
  cells := ((r.nodes.toList.zip r.names.toList).map r.cell).toArray
  freshCount := r.freshCount

def intern (r : Register) (text : String) : Symbol × Register :=
  let (a, interner) := r.interner.intern text
  (a, { r with interner := interner })

/-- Adds an entry to the table, and its name to the names. -/
def add (r : Register) (name : Symbol) : Nat × Register :=
  (r.nodes.size, { r with nodes := r.nodes.push ⟨r.nodes.size, 0, none⟩, names := r.names.push name })

/-- The number of the variable that a program calls by this name. -/
def called (r : Register) (name : Symbol) : Nat × Register :=
  match r.byName.lookup name with
  | some key => (key, r)
  | none =>
    let (key, r) := r.add name
    (key, { r with byName := (name, key) :: r.byName })

/-- The variable of a program with this name. What is done before the name is refused stays. -/
def var (r : Register) (name : String) : Except NameError Ty × Register :=
  match checkVarName name with
  | .error e => (.error e, r)
  | .ok _ =>
    let (a, r) := r.intern name
    let (key, r) := r.called a
    (.ok (.var ⟨key, r.interner.display a⟩), r)

def fresh (r : Register) : Ty × Register :=
  let (a, interner) := r.interner.internIndexed "?t" r.freshCount
  let (key, r) := { r with interner := interner, freshCount := r.freshCount + 1 }.add a
  (.var ⟨key, r.interner.display a⟩, r)

def freshFor (r : Register) : List Var → List (Var × Ty) × Register
  | [] => ([], r)
  | v :: vs =>
    let (t, r) := r.fresh
    let (rest, r) := r.freshFor vs
    ((v, t) :: rest, r)

def instantiate (r : Register) (t : Ty) : Ty × Register :=
  let resolved := r.subst.resolve t
  let (copies, r) := r.freshFor resolved.vars
  (resolved.bindVars fun v => (copies.lookup v).getD (.var v), r)

/-- A new variable for each placeholder, whose name is interned behind it. -/
def freshArguments (r : Register) : List String → List Ty × Register
  | [] => ([], r)
  | placeholder :: placeholders =>
    let (t, r) := r.fresh
    let (_, r) := r.intern placeholder
    let (ts, r) := r.freshArguments placeholders
    (t :: ts, r)

def answer (r : Register) : Request → Answer × Register
  | .var name =>
    let (t, r) := r.var name
    (t.map fun t => [t], r)
  | .fresh =>
    let (t, r) := r.fresh
    (.ok [t], r)
  | .instantiate t =>
    let (copy, r) := r.instantiate t
    (.ok [copy], r)
  | .matcher _ _ placeholders _ =>
    let (ts, r) := r.freshArguments placeholders
    let (t, r) := r.fresh
    (.ok (ts ++ [t]), r)
  | .unify t u => (.ok [], { r with nodes := (r.subst.unify t u).2.cells.map node })
  | .intern text => (.ok [], (r.intern text).2)

variable {r : Register} {s : Substitution} {a : Symbol} {name : String} {key : Nat}

/-! ## The parts in step -/

/-- All parts tell of the same variables. -/
structure InStep (r : Register) : Prop where
  unrepeated : r.interner.Unrepeated
  known : ∀ a ∈ r.names.toList, r.interner.Known a
  sized : r.nodes.size = r.names.size
  /-- Found by a name are the variables that a program can call by it. -/
  indexed : ∀ a key, r.byName.lookup a = some key ↔
    r.names[key]? = some a ∧ checkVarName (r.interner.display a) = .ok ()
  distinct : r.subst.Distinct

/-- The parts are in step, and are those of the substitution. -/
structure Shows (r : Register) (s : Substitution) : Prop where
  inStep : r.InStep
  subst_eq : r.subst = s

theorem names_subst (h : r.nodes.size = r.names.size) :
    r.subst.names = r.names.toList.map r.interner.display := by
  have hsnd : (r.nodes.toList.zip r.names.toList).map Prod.snd = r.names.toList :=
    List.map_snd_zip (by simp [h])
  rw [← hsnd, List.map_map, Substitution.names, subst, List.map_map]
  rfl

theorem size_subst (h : r.nodes.size = r.names.size) : r.subst.size = r.size := by
  rw [← Substitution.length_names, names_subst h, List.length_map, Array.length_toList, size]

theorem vars_subst (h : r.nodes.size = r.names.size) : r.subst.vars = r.vars := by
  rw [Substitution.vars, names_subst h, vars]
  refine List.ext_getElem? fun i => ?_
  rw [List.getElem?_mapIdx, List.getElem?_mapIdx, List.getElem?_map, Option.map_map]
  rfl

theorem shows_empty : Shows {} {} where
  inStep := ⟨Interner.unrepeated_empty, nofun, rfl, by simp, Substitution.distinct_empty⟩
  subst_eq := rfl

theorem Shows.intern (h : r.Shows s) (text : String) : (r.intern text).2.Shows s := by
  obtain ⟨h, rfl⟩ := h
  have hkept {a : Symbol} (ha : a ∈ r.names.toList) :
      (r.intern text).2.interner.display a = r.interner.display a :=
    (h.known a ha).display_intern text
  have hsubst : (r.intern text).2.subst = r.subst := by
    have hcells : (r.nodes.toList.zip r.names.toList).map (r.intern text).2.cell =
        (r.nodes.toList.zip r.names.toList).map r.cell :=
      List.map_congr_left fun entry hentry => by
        rw [cell, cell, hkept (List.of_mem_zip hentry).2]
    rw [subst, subst, ← hcells]
    rfl
  refine ⟨?_, hsubst⟩
  constructor
  case unrepeated => exact h.unrepeated.intern text
  case known => exact fun a ha => (h.known a ha).intern text
  case sized => exact h.sized
  case indexed =>
    intro a key
    refine (h.indexed a key).trans (and_congr_right fun hkey => ?_)
    rw [hkept (Array.mem_toList_iff.mpr (Array.mem_of_getElem? hkey))]
  case distinct => exact hsubst ▸ h.distinct

theorem subst_add (h : r.nodes.size = r.names.size) (a : Symbol) :
    (r.add a).2.subst = (r.subst.add (r.interner.display a)).2 := by
  have hsize : r.subst.size = r.nodes.size := (size_subst h).trans h.symm
  have hzip : (r.add a).2.nodes.toList.zip (r.add a).2.names.toList =
      r.nodes.toList.zip r.names.toList ++ [(⟨r.nodes.size, 0, none⟩, a)] := by
    rw [add, Array.toList_push, Array.toList_push, List.zip_append (by simpa using h)]
    rfl
  rw [subst, hzip, Substitution.add, hsize, List.map_append]
  simp [subst, cell, add]

/-- A variable is added, and found by its name if a program can call it by that. -/
theorem InStep.push (h : r.InStep) (ha : r.interner.Known a) {byName : List (Symbol × Nat)} {freshCount : Nat}
    (hindexed : ∀ b key, byName.lookup b = some key ↔ r.byName.lookup b = some key ∨
      (b = a ∧ key = r.names.size) ∧ checkVarName (r.interner.display a) = .ok ())
    (hdistinct : { (r.add a).2 with byName, freshCount }.subst.Distinct) :
    { (r.add a).2 with byName, freshCount }.InStep where
  unrepeated := h.unrepeated
  known := by
    intro b hb
    rw [add, Array.toList_push] at hb
    rcases List.mem_append.mp hb with hb | hb
    · exact h.known b hb
    · exact List.mem_singleton.mp hb ▸ ha
  sized := by
    rw [add, Array.size_push, Array.size_push, h.sized]
  indexed b key := by
    rw [hindexed, h.indexed, add, Array.getElem?_push]
    by_cases hkey : key = r.names.size
    · subst hkey
      have hnone : r.names[r.names.size]? = none := Array.getElem?_size
      rw [hnone, if_pos rfl]
      constructor
      · rintro (⟨⟨⟩, -⟩ | ⟨⟨rfl, -⟩, hname⟩)
        exact ⟨rfl, hname⟩
      · rintro ⟨⟨⟩, hname⟩
        exact .inr ⟨⟨rfl, rfl⟩, hname⟩
    · simp [hkey]
  distinct := hdistinct

/-! ## One request -/

theorem Shows.names_eq (h : r.Shows s) : s.names = r.names.toList.map r.interner.display := by
  rw [← h.subst_eq, names_subst h.inStep.sized]

theorem Shows.size_eq (h : r.Shows s) : s.size = r.nodes.size := by
  rw [← h.subst_eq, size_subst h.inStep.sized, size, h.inStep.sized]

theorem Shows.distinct (h : r.Shows s) : s.Distinct :=
  h.subst_eq ▸ h.inStep.distinct

theorem known_intern (r : Register) (text : String) :
    (r.intern text).2.interner.Known (r.intern text).1 :=
  Interner.known_intern ..

theorem display_intern (r : Register) (text : String) :
    (r.intern text).2.interner.display (r.intern text).1 = text :=
  Interner.display_intern ..

/-- A name that no variable has is not found. -/
theorem Shows.lookup_eq_none (h : r.Shows s) (hnew : r.interner.display a ∉ s.names) :
    r.byName.lookup a = none := by
  refine Option.eq_none_iff_forall_ne_some.mpr fun key hkey => hnew ?_
  have hmem := Array.mem_of_getElem? ((h.inStep.indexed a key).mp hkey).1
  rw [h.names_eq]
  exact List.mem_map_of_mem (Array.mem_toList_iff.mpr hmem)

theorem Shows.add (h : r.Shows s) (a : Symbol) :
    (r.add a).1 = s.size ∧ (r.add a).2.subst = (s.add (r.interner.display a)).2 :=
  ⟨h.size_eq.symm, h.subst_eq ▸ subst_add h.inStep.sized a⟩

theorem Shows.called (h : r.Shows s) (ha : r.interner.Known a)
    (hname : checkVarName (r.interner.display a) = .ok ()) (hnew : r.interner.display a ∉ s.names) :
    (r.called a).1 = s.size ∧ (r.called a).2.interner = r.interner ∧
      (r.called a).2.Shows (s.add (r.interner.display a)).2 := by
  obtain ⟨hkey, hsubst⟩ := h.add a
  have hcalled : r.called a =
      ((r.add a).1, { (r.add a).2 with byName := (a, (r.add a).1) :: (r.add a).2.byName }) := by
    rw [Register.called, h.lookup_eq_none hnew]
  rw [hcalled]
  refine ⟨hkey, rfl, h.inStep.push ha (fun b key => ?_) ?_, hsubst⟩
  · change List.lookup b ((a, r.nodes.size) :: r.byName) = some key ↔ _
    rw [List.lookup_cons, h.inStep.sized]
    by_cases hb : b = a
    · rw [hb, beq_self_eq_true, h.lookup_eq_none hnew]
      simp [hname, eq_comm]
    · simp [beq_false_of_ne hb, hb]
  · change (r.add a).2.subst.Distinct
    exact hsubst ▸ h.distinct.add hname hnew

theorem var_error {e : NameError} (hname : checkVarName name = .error e) : r.var name = (.error e, r) := by
  rw [var, hname]

theorem Shows.var_of_getElem? (h : r.Shows s) (hname : checkVarName name = .ok ())
    (hkey : s.names[key]? = some name) : r.var name = (.ok (.var ⟨key, name⟩), r) := by
  rw [h.names_eq, List.getElem?_map, Option.map_eq_some_iff] at hkey
  obtain ⟨a, ha, rfl⟩ := hkey
  have hintern : r.intern (r.interner.display a) = (a, r) := by
    rw [Register.intern, h.inStep.unrepeated.intern_display (h.inStep.known a (List.mem_of_getElem? ha))]
  have hlookup : r.byName.lookup a = some key :=
    (h.inStep.indexed a key).mpr ⟨Array.getElem?_toList ▸ ha, hname⟩
  have hcalled : r.called a = (key, r) := by
    rw [Register.called, hlookup]
  rw [var, hname]
  simp only [hintern, hcalled]

theorem Shows.var_of_not_mem (h : r.Shows s) (hname : checkVarName name = .ok ()) (hnew : name ∉ s.names) :
    (r.var name).1 = .ok (.var ⟨s.size, name⟩) ∧ (r.var name).2.Shows (s.add name).2 := by
  have hdisplay := r.display_intern name
  obtain ⟨hkey, hinterner, hshows⟩ := (h.intern name).called (r.known_intern name)
    (hdisplay.symm ▸ hname) (hdisplay.symm ▸ hnew)
  rw [hdisplay] at hshows
  rw [var, hname]
  refine ⟨?_, hshows⟩
  simp only [hkey, hinterner, hdisplay]

theorem Shows.fresh (h : r.Shows s) : r.fresh.1 = s.fresh.1 ∧ r.fresh.2.Shows s.fresh.2 := by
  have hcount : s.freshCount = r.freshCount := h.subst_eq ▸ rfl
  have hknown := r.known_intern (Substitution.freshName r.freshCount)
  have hdisplay := r.display_intern (Substitution.freshName r.freshCount)
  have hshows := h.intern (Substitution.freshName r.freshCount)
  have hfresh : r.fresh =
      let (a, r₁) := r.intern (Substitution.freshName r.freshCount)
      (.var ⟨(r₁.add a).1, r₁.interner.display a⟩, { (r₁.add a).2 with freshCount := r.freshCount + 1 }) := rfl
  generalize r.intern (Substitution.freshName r.freshCount) = named at hknown hdisplay hshows hfresh
  obtain ⟨a, r₁⟩ := named
  dsimp only at hknown hdisplay hshows hfresh
  obtain ⟨hkey, hadd⟩ := hshows.add a
  rw [hdisplay, ← hcount] at hadd
  have hsubst : { (r₁.add a).2 with freshCount := r.freshCount + 1 }.subst = s.fresh.2 :=
    calc { (r₁.add a).2 with freshCount := r.freshCount + 1 }.subst
      _ = { (r₁.add a).2.subst with freshCount := r.freshCount + 1 } := rfl
      _ = s.fresh.2 := by rw [hadd, ← hcount]; rfl
  rw [hfresh]
  refine ⟨?_, hshows.inStep.push hknown (fun b key => ?_) (hsubst ▸ h.distinct.fresh), hsubst⟩
  · rw [hkey, hdisplay, ← hcount]
    rfl
  · -- a program cannot call the variable, which has no place among those that are found by their names
    rw [hdisplay, Substitution.checkVarName_freshName]
    exact (or_iff_left nofun).symm

theorem Shows.freshFor (h : r.Shows s) (vs : List Var) :
    (r.freshFor vs).1 = (s.freshFor vs).1 ∧ (r.freshFor vs).2.Shows (s.freshFor vs).2 := by
  induction vs generalizing r s with
  | nil => exact ⟨rfl, h⟩
  | cons v vs ih =>
    obtain ⟨hfresh, hshows⟩ := h.fresh
    obtain ⟨hrest, hshows'⟩ := ih hshows
    exact ⟨congrArg₂ (fun t rest => (v, t) :: rest) hfresh hrest, hshows'⟩

theorem Shows.instantiate (h : r.Shows s) (t : Ty) :
    (r.instantiate t).1 = (s.instantiate t).1 ∧ (r.instantiate t).2.Shows (s.instantiate t).2 := by
  obtain ⟨hcopies, hshows⟩ := h.freshFor (s.resolve t).vars
  rw [Register.instantiate, h.subst_eq]
  exact ⟨congrArg (fun copies => (s.resolve t).bindVars fun v => (copies.lookup v).getD (.var v)) hcopies,
    hshows⟩

theorem Shows.freshArguments {session : Session} (h : r.Shows session.subst) (placeholders : List String) :
    (r.freshArguments placeholders).1 = (session.freshArguments placeholders.length).1.map (·.ty) ∧
    (r.freshArguments placeholders).2.Shows (session.freshArguments placeholders.length).2.subst := by
  induction placeholders generalizing r session with
  | nil => exact ⟨rfl, h⟩
  | cons placeholder placeholders ih =>
    obtain ⟨hfresh, hshows⟩ := h.fresh
    have hinterned : (r.fresh.2.intern placeholder).2.Shows
        (session.freshTy.2.freshArgument session.freshTy.1).2.subst := hshows.intern placeholder
    obtain ⟨hrest, hshows'⟩ := ih hinterned
    exact ⟨congrArg₂ List.cons hfresh hrest, hshows'⟩

/-- A table that has the names of the register is kept in its nodes. -/
theorem subst_nodes (hnames : s.names = r.names.toList.map r.interner.display)
    (hcount : s.freshCount = r.freshCount) : { r with nodes := s.cells.map node }.subst = s := by
  have hcells : ((s.cells.toList.map node).zip r.names.toList).map r.cell = s.cells.toList :=
    calc ((s.cells.toList.map node).zip r.names.toList).map r.cell
      _ = List.zipWith (fun c name => { c with name }) s.cells.toList (r.names.toList.map r.interner.display) := by
        rw [List.map_zip_eq_zipWith, List.zipWith_map_left, List.zipWith_map_right]
        rfl
      _ = s.cells.toList := by
        rw [← hnames, Substitution.names, List.zipWith_map_right, List.zipWith_self, List.map_id']
  obtain ⟨cells, freshCount⟩ := s
  have harray : (((cells.map node).toList.zip r.names.toList).map r.cell).toArray = cells := by
    rw [Array.toList_map, hcells]
  exact congrArg₂ Substitution.mk harray hcount.symm

/-- A unification changes the table only. -/
theorem Shows.unify (h : r.Shows s) (t u : Ty) :
    (r.answer (.unify t u)).2.Shows (s.unify t u).2 := by
  obtain ⟨h, rfl⟩ := h
  have hnames : (r.subst.unify t u).2.names = r.names.toList.map r.interner.display :=
    Substitution.names_unify.trans (names_subst h.sized)
  have hsubst : (r.answer (.unify t u)).2.subst = (r.subst.unify t u).2 :=
    subst_nodes hnames Substitution.freshCount_unify
  refine ⟨⟨h.unrepeated, h.known, ?_, h.indexed, hsubst ▸ h.distinct.unify t u⟩, hsubst⟩
  have hlength := congrArg List.length hnames
  rw [Substitution.length_names, List.length_map, Array.length_toList] at hlength
  rw [answer, Array.size_map]
  exact hlength

theorem Shows.answer {session : Session} (h : r.Shows session.subst) (request : Request) :
    (r.answer request).1 = (session.answer request).1 ∧
      (r.answer request).2.Shows (session.answer request).2.subst := by
  cases request with
  | var name =>
    cases hname : checkVarName name with
    | error e =>
      rw [Session.answer_var_error hname, Register.answer, var_error hname]
      exact ⟨rfl, h⟩
    | ok =>
      by_cases hmem : name ∈ session.subst.names
      · obtain ⟨i, hi⟩ := List.mem_iff_getElem?.mp hmem
        rw [Session.answer_var_of_mem h.distinct hname hi, Register.answer, h.var_of_getElem? hname hi]
        exact ⟨rfl, h⟩
      · obtain ⟨hvar, hshows⟩ := h.var_of_not_mem hname hmem
        rw [Session.answer_var_of_not_mem hname hmem]
        exact ⟨congrArg (Except.map fun t => [t]) hvar, hshows⟩
  | fresh =>
    obtain ⟨hfresh, hshows⟩ := h.fresh
    exact ⟨congrArg (fun t => (.ok [t] : Answer)) hfresh, hshows⟩
  | instantiate t =>
    obtain ⟨hcopy, hshows⟩ := h.instantiate t
    exact ⟨congrArg (fun t => (.ok [t] : Answer)) hcopy, hshows⟩
  | matcher name nameSpan placeholders clauses =>
    obtain ⟨hargs, hshows⟩ := h.freshArguments placeholders
    obtain ⟨hresult, hshows'⟩ := hshows.fresh
    exact ⟨congrArg₂ (fun ts t => (.ok (ts ++ [t]) : Answer)) hargs hresult, hshows'⟩
  | unify t u => exact ⟨rfl, h.unify t u⟩
  | intern text => exact ⟨rfl, h.intern text⟩

theorem shows_serve (requests : List Request) :
    (serve answer {} requests).1 = (serve Session.answer {} requests).1 ∧
      (serve answer {} requests).2.Shows (serve Session.answer {} requests).2.subst := by
  induction requests using List.reverseRecOn with
  | nil => exact ⟨rfl, shows_empty⟩
  | append_singleton requests request ih =>
    obtain ⟨hhistory, hshows⟩ := ih
    obtain ⟨hanswer, hshows'⟩ := hshows.answer request
    rw [Session.serve_concat, Session.serve_concat]
    exact ⟨congrArg₂ (fun history a => history ++ [(request, a)]) hhistory hanswer, hshows'⟩

/-! ## Names and numbers -/

/-- What a history of requests tells of the register that it left. -/
structure Identifies (history : History) (r : Register) : Prop where
  inStep : r.InStep
  /-- The variables in the answers are numbered in the order in which they first occur there, and are all there
  are. -/
  numbered : history.occurrences.eraseDups = r.vars
  counted : history.occurrences.eraseDups.length = r.size
  /-- No answer has the variable that is made next. -/
  old : ∀ v ∈ history.occurrences, v.index < r.size
  /-- Two variables never have one name, not even as a text. -/
  apart : ∀ i j a b, r.nameOf? i = some a → r.nameOf? j = some b →
    r.interner.display a = r.interner.display b → i = j
  again : ∀ name a, (.var name, a) ∈ history → checkVarName name = .ok () →
    (∃ i, a = .ok [.var ⟨i, name⟩]) ∧ r.answer (.var name) = (a, r)
  first : ∀ name, (∀ a, (.var name, a) ∉ history) → checkVarName name = .ok () →
    (r.answer (.var name)).1 = .ok [.var ⟨r.size, name⟩]
  rejected : ∀ name e, checkVarName name = .error e → r.answer (.var name) = (.error e, r)
  fresh : ∃ name, (r.answer .fresh).1 = .ok [.var ⟨r.size, name⟩] ∧
    checkVarName name ≠ .ok () ∧ checkConstrName name ≠ .ok ()

theorem Shows.identifies {history : History} (h : r.Shows s) (haccounts : Session.Accounts history s) :
    Identifies history r := by
  have hvars : history.occurrences.eraseDups = r.vars := by
    rw [haccounts.vars_eq, ← h.subst_eq, vars_subst h.inStep.sized]
  have hsize : s.size = r.size := by
    rw [h.size_eq, h.inStep.sized, size]
  constructor
  case inStep => exact h.inStep
  case numbered => exact hvars
  case counted => rw [hvars, vars, List.length_mapIdx, Array.length_toList, size]
  case old =>
    intro v hv
    rw [← List.mem_eraseDups, haccounts.vars_eq] at hv
    exact hsize ▸ Substitution.index_lt_of_mem_vars hv
  case apart =>
    intro i j a b hi hj he
    have hname {i : Nat} {a : Symbol} (hi : r.nameOf? i = some a) :
        s.names[i]? = some (r.interner.display a) := by
      rw [nameOf?, ← Array.getElem?_toList] at hi
      rw [h.names_eq, List.getElem?_map, hi, Option.map_some]
    have hlt : i < s.names.length := (List.getElem?_eq_some_iff.mp (hname hi)).1
    exact (List.getElem?_inj hlt h.distinct.nodup).mp ((hname hi).trans (he ▸ (hname hj).symm))
  case again =>
    intro name a hmem hname
    obtain ⟨i, hi, rfl⟩ := haccounts.called name a hmem hname
    exact ⟨⟨i, rfl⟩, by rw [Register.answer, h.var_of_getElem? hname hi]; rfl⟩
  case first =>
    intro name hnone hname
    have hnew : name ∉ s.names := fun hmem => by
      obtain ⟨a, ha⟩ := haccounts.accepted name hmem hname
      exact hnone a ha
    exact hsize ▸ congrArg (Except.map fun t => [t]) (h.var_of_not_mem hname hnew).1
  case rejected =>
    intro name e hname
    rw [Register.answer, var_error hname]
    rfl
  case fresh =>
    refine ⟨Substitution.freshName s.freshCount, ?_, ?_, ?_⟩
    · exact hsize ▸ congrArg (fun t => (.ok [t] : Answer)) h.fresh.1
    · rw [Substitution.checkVarName_freshName]
      nofun
    · rw [Substitution.checkConstrName_freshName]
      nofun

end Register

/-- Variables and their names, whatever is asked for: a request is answered as by the session, and the register
has the variables of its substitution. Of the answers up to then, those with a new variable come in the order of
the numbers, and none is missing. A name is the name of one variable: that which it was first handed out for, or
else the next one. A new variable has the next number and a name that no program can spell; a name that is
refused changes nothing. -/
theorem Session.names_identify (requests : List Request) :
    let served := serve Session.answer {} requests
    let kept := serve Register.answer {} requests
    kept.1 = served.1 ∧ kept.2.subst = served.2.subst ∧ Register.Identifies kept.1 kept.2 := by
  obtain ⟨hhistory, hshows⟩ := Register.shows_serve requests
  refine ⟨hhistory, hshows.subst_eq, hshows.identifies ?_⟩
  rw [hhistory]
  exact Session.accounts_serve requests

/-- A name, a new variable, the name again, a copy with both variables in it, and a name that is refused. -/
example :
    let copied : Ty := .fn (.var ⟨1, "?t0"⟩) (.var ⟨0, "a"⟩)
    (serve Register.answer {} [.var "a", .fresh, .var "a", .instantiate copied, .var "?t0"]).1.map Prod.snd =
      [.ok [.var ⟨0, "a"⟩], .ok [.var ⟨1, "?t0"⟩], .ok [.var ⟨0, "a"⟩],
        .ok [.fn (.var ⟨2, "?t1"⟩) (.var ⟨3, "?t2"⟩)], .error (.notLowercase "?t0")] := by
  decide +kernel

end Clausal
