import Clausal.Proofs.Matcher.Placement
import Clausal.Proofs.Reduction.Patterns
import Std.Data.String.ToNat

/-!
# Values built by position and patterns with fields by position

The names of fields are made at three places: when a value is built, when a constructor is declared,
and when a pattern is bound. They meet in the lookup of a field, which takes the first one of a name.
Numbers have one written form each, so the names of a value differ whatever the prefix is, also one
that ends in digits; and each pattern gets the value and the type at its own position.
-/
namespace Clausal

/-! ## Names -/

namespace Config

variable {config : Config}

theorem fieldName_injective {i j : Nat} (h : config.fieldName i = config.fieldName j) : i = j := by
  have hnumbers := Nat.repr_injective ((String.append_right_inj _).mp h)
  omega

theorem positionalField_of_lt {position : Nat}
    (h : config.tupleFieldBase.toNat + position < UInt64.size) :
    config.positionalField position = .ok (config.fieldName position) :=
  if_pos h

/-- Each thing is what is found under the name of its position, the first at the given one. -/
def Finds {α : Type} (config : Config) (named : List (String × α)) (position : Nat) (as : List α) :
    Prop :=
  ∀ (i : Nat) (a : α), as[i]? = some a → named.lookup (config.fieldName (position + i)) = some a

theorem Finds.head {α : Type} {named : List (String × α)} {position : Nat} {a : α} {as : List α}
    (h : config.Finds named position (a :: as)) :
    named.lookup (config.fieldName position) = some a :=
  h 0 a rfl

theorem Finds.tail {α : Type} {named : List (String × α)} {position : Nat} {a : α} {as : List α}
    (h : config.Finds named position (a :: as)) : config.Finds named (position + 1) as := by
  intro i b hb
  rw [show position + 1 + i = position + (i + 1) by omega]
  exact h (i + 1) b hb

/-- Another name in front of the row makes no difference to the positions behind its own. -/
theorem Finds.cons {α : Type} {named : List (String × α)} {position : Nat} {as : List α}
    (h : config.Finds named (position + 1) as) (a : α) :
    config.Finds ((config.fieldName position, a) :: named) position (a :: as) := by
  intro i b hb
  cases i with
  | zero =>
    cases hb
    rw [Nat.add_zero, List.lookup_cons_self]
  | succ i =>
    have hne : config.fieldName (position + (i + 1)) ≠ config.fieldName position := by
      intro he
      have hij := fieldName_injective he
      omega
    rw [List.lookup_cons, beq_false_of_ne hne]
    rw [show position + (i + 1) = position + 1 + i by omega]
    exact h i b hb

/-- Where all numbers are machine words, things can be named by position, and are found so. -/
theorem exists_nameFields {α : Type} : ∀ (as : List α) (position : Nat),
    config.tupleFieldBase.toNat + (position + as.length) ≤ UInt64.size →
      ∃ named, config.nameFields position as = .ok named ∧ config.Finds named position as
  | [], position, _ => ⟨[], rfl, fun i a h => by cases h⟩
  | a :: as, position, h => by
    rw [List.length_cons] at h
    obtain ⟨named, hnamed, hfinds⟩ := exists_nameFields as (position + 1) (by omega)
    refine ⟨(config.fieldName position, a) :: named, ?_, hfinds.cons a⟩
    rw [nameFields, positionalField_of_lt (by omega), hnamed]
    rfl

end Config

namespace Pattern

variable {config : Config} {apply : Apply} {locals : Locals}

/-! ## Meaning and places -/

theorem unplacedAll_eq_map : ∀ ps : List Pattern, unplacedAll ps = ps.map unplaced
  | [] => rfl
  | p :: ps => by rw [unplacedAll, List.map_cons, unplacedAll_eq_map ps]

mutual

/-- What a pattern accepts does not depend on its places. -/
theorem accepts_unplaced : ∀ (p : Pattern) (subject : EvalM Value),
    p.unplaced.accepts config apply locals subject = p.accepts config apply locals subject
  | .ignore _, _ => rfl
  | .capture _ _ _ _, _ => rfl
  | .equal _ _ _, _ => rfl
  | .record _ c _ fields _, subject => by
    rw [unplaced, accepts, accepts, fieldsAccept_unplaced fields]
  | .tuple _ c _ fields _, subject => by
    rw [unplaced, accepts, accepts, positionsAccept_unplaced fields]
  | .group _ _, _ => rfl

theorem fieldsAccept_unplaced : ∀ (fs : List FieldPattern) (subject : EvalM Value),
    fieldsAccept config apply locals (unplacedFields fs) subject =
      fieldsAccept config apply locals fs subject
  | [], _ => rfl
  | ⟨n, _, p⟩ :: fs, subject => by
    rw [unplacedFields, fieldsAccept, fieldsAccept, accepts_unplaced p, fieldsAccept_unplaced fs]

theorem positionsAccept_unplaced : ∀ (ps : List Pattern) (position : Nat) (subject : EvalM Value),
    positionsAccept config apply locals position (unplacedAll ps) subject =
      positionsAccept config apply locals position ps subject
  | [], _, _ => rfl
  | p :: ps, position, subject => by
    rw [unplacedAll, positionsAccept, positionsAccept, accepts_unplaced p,
      positionsAccept_unplaced ps]

end

mutual

/-- What a pattern captures does not depend on its places. -/
theorem captured_unplaced : ∀ (p : Pattern) (subject : EvalM Value),
    p.unplaced.captured config subject = p.captured config subject
  | .ignore _, _ => rfl
  | .capture _ _ _ _, _ => rfl
  | .equal _ _ _, _ => rfl
  | .record _ _ _ fields _, subject => fieldsCaptured_unplaced fields subject
  | .tuple _ _ _ fields _, subject => positionsCaptured_unplaced fields 0 subject
  | .group _ _, _ => rfl

theorem fieldsCaptured_unplaced : ∀ (fs : List FieldPattern) (subject : EvalM Value),
    fieldsCaptured config (unplacedFields fs) subject = fieldsCaptured config fs subject
  | [], _ => rfl
  | ⟨n, _, p⟩ :: fs, subject => by
    rw [unplacedFields, fieldsCaptured, fieldsCaptured, captured_unplaced p,
      fieldsCaptured_unplaced fs]

theorem positionsCaptured_unplaced : ∀ (ps : List Pattern) (position : Nat) (subject : EvalM Value),
    positionsCaptured config position (unplacedAll ps) subject =
      positionsCaptured config position ps subject
  | [], _, _ => rfl
  | p :: ps, position, subject => by
    rw [unplacedAll, positionsCaptured, positionsCaptured, captured_unplaced p,
      positionsCaptured_unplaced ps]

end

/-! ## Fields of a value -/

theorem projected_of_lookup {c n : String} {fields : List (String × Value)} {v : Value}
    (h : fields.lookup n = some v) : projected (pure (.data c fields)) n = pure v := by
  rw [projected, pure_bind, Tree.project, Tree.asData, pure_bind]
  dsimp only
  rw [h]

/-- Patterns look at the values that are found at their positions. -/
theorem positionsAccept_eq {c : String} {fields : List (String × Value)} :
    ∀ {ps : List Pattern} {vs : List Value} {position : Nat}, ps.length ≤ vs.length →
      config.Finds fields position vs →
      positionsAccept config apply locals position ps (pure (.data c fields)) =
        allAccept config apply locals ps vs
  | [], vs, position, _, _ => by cases vs <;> rfl
  | p :: ps, v :: vs, position, hlen, hfinds => by
    rw [positionsAccept, allAccept, projected_of_lookup hfinds.head,
      positionsAccept_eq (Nat.le_of_succ_le_succ hlen) hfinds.tail]

theorem positionsCaptured_eq {c : String} {fields : List (String × Value)} :
    ∀ {ps : List Pattern} {vs : List Value} {position : Nat}, ps.length ≤ vs.length →
      config.Finds fields position vs →
      positionsCaptured config position ps (pure (.data c fields)) = allCaptured config ps vs
  | [], vs, position, _, _ => by cases vs <;> rfl
  | p :: ps, v :: vs, position, hlen, hfinds => by
    rw [positionsCaptured, allCaptured, projected_of_lookup hfinds.head,
      positionsCaptured_eq (Nat.le_of_succ_le_succ hlen) hfinds.tail]

/-! ## Sub-patterns -/

theorem forall_mem_nodesAll {P : Pattern → Prop} : ∀ {ps : List Pattern},
    (∀ node ∈ nodesAll ps, P node) ↔ ∀ p ∈ ps, ∀ node ∈ p.nodes, P node
  | [] => by simp [nodesAll]
  | p :: ps => by
    rw [nodesAll, List.forall_mem_append, List.forall_mem_cons, forall_mem_nodesAll]

theorem succeeds_bindPositions_of_free {ps : List Pattern} (hfree : ∀ p ∈ ps, p.Free config)
    (hlen : config.tupleFieldBase.toNat + ps.length ≤ UInt64.size) (parent : Place) :
    Succeeds (bindPositions config parent 0 ps) := by
  refine (succeeds_bindPositions ps _ 0).mpr ⟨forall_mem_nodesAll.mpr hfree, fun i hi => ?_⟩
  omega

/-- The place of a bound pattern is the one it was bound to, but for the test of its own constructor. -/
theorem BoundAt.place_cases {p : Pattern} {place bound : Place} (h : p.BoundAt config place)
    (hbound : p.place? = some bound) : bound = place ∨ ∃ c, bound = place.tagged c := by
  rw [h.place_eq] at hbound
  cases p with
  | ignore s => cases hbound
  | capture s n t p =>
    cases hbound
    exact .inl rfl
  | equal s e p =>
    cases hbound
    exact .inl rfl
  | record s c cs fields p =>
    cases hbound
    exact .inr ⟨c, rfl⟩
  | tuple s c cs fields p =>
    cases hbound
    exact .inr ⟨c, rfl⟩
  | group s members => cases hbound

theorem open_unplaced {hidden : List String} {steps : List Step} :
    Open hidden (steps.map Step.unplaced) ↔ Open hidden steps := by
  rw [Open, List.forall_mem_map]
  refine forall₂_congr fun s _ => ?_
  rw [Step.name?_unplaced]

section

variable {hidden : List String} {fields : List (String × Value)} {parent bound : Place}
  {constr : String} {qs : List Pattern} {q : Pattern} {i : Nat}

theorem PositionsBoundAt.place_cases (h : PositionsBoundAt config parent 0 qs) (hq : qs[i]? = some q)
    (hbound : q.place? = some bound) : bound = parent.access (config.fieldName i) ∨
      ∃ c, bound = (parent.access (config.fieldName i)).tagged c := by
  have hat := h.of_getElem? hq
  rw [Nat.zero_add] at hat
  exact hat.place_cases hbound

/-- The value at the position of a pattern. -/
theorem PositionsBoundAt.shows {v : Value} (h : PositionsBoundAt config parent 0 qs)
    (hc : parent.tag? = some constr) (hq : qs[i]? = some q) (hbound : q.place? = some bound)
    (hs : Shows apply hidden locals parent (pure (.data constr fields)))
    (hv : fields.lookup (config.fieldName i) = some v) :
    Shows apply hidden locals bound (pure v) := by
  have hshows := hs.field hc (config.fieldName i)
  rw [projected_of_lookup hv] at hshows
  rcases h.place_cases hq hbound with rfl | ⟨c, rfl⟩
  · exact hshows
  · exact hshows.tagged c

/-- The type at the position of a pattern. -/
theorem PositionsBoundAt.typeOfPlace_eq {decls : Declarations} {ty : Ty}
    (h : PositionsBoundAt config parent 0 qs) (hc : parent.tag? = some constr) (hq : qs[i]? = some q)
    (hbound : q.place? = some bound)
    (hty : decls.env.field? constr (config.fieldName i) = some ty) :
    Checker.typeOfPlace bound decls = Checker.instantiate ty decls := by
  have htype (tag : Option String) :
      Checker.typeOfPlace (.field parent (config.fieldName i) tag) decls =
        Checker.instantiate ty decls := by
    change Checker.instantiateOrFresh
      (parent.tag?.bind (decls.env.field? · (config.fieldName i))) decls = _
    rw [hc, Option.bind_some, hty]
    rfl
  rcases h.place_cases hq hbound with rfl | ⟨c, rfl⟩
  · exact htype none
  · exact htype (some c)

end

/-! ## Matching -/

/-- Reducing the pattern adds tests and bindings to the open clause. The tests come to this truth value,
and where it is true, the bindings add these locals. -/
def ReducesTo (apply : Apply) (locals : Locals) (q : Pattern) (accepted : EvalM Bool)
    (captured : EvalM Locals) : Prop :=
  ∃ tests binds, (∀ (l : Level) (c : ClauseState) (ls : List Level),
      q.reduce ⟨{ l with opened := some c } :: ls⟩ = .ok () ⟨{ l with opened := some { c with
        conditions := c.conditions ++ tests, assignments := c.assignments ++ binds } } :: ls⟩) ∧
    Tree.evalAnd apply locals tests = (do return .ofBool (← accepted)) ∧
    (accepted = pure true → Tree.enter apply binds locals = do return (← captured) ++ locals)

/-- A bound pattern is reduced to what it means. -/
theorem BoundAt.reducesTo {hidden : List String} {q : Pattern} {place : Place} {subject : EvalM Value}
    (h : q.BoundAt config place) (hopen : Open hidden q.steps)
    (hs : Shows apply hidden locals place subject) :
    ReducesTo apply locals q (q.accepts config apply locals subject) (q.captured config subject) := by
  refine ⟨q.steps.filterMap Step.test?, q.steps.filterMap Step.assignment?, fun l c ls => ?_, ?_, ?_⟩
  · rcases q.reduce_onLevel (l := l) (c := c) with ⟨-, hrun⟩ | ⟨hn, -⟩
    · exact hrun ls
    · exact absurd h.isBound hn
  · exact accepts_run (fun _ _ => rfl) h hopen hs
  · intro haccept
    exact (captured_run h hopen hs haccept).enter_eq

theorem allAccept_unplaced : ∀ (ps : List Pattern) (vs : List Value),
    allAccept config apply locals (unplacedAll ps) vs = allAccept config apply locals ps vs
  | [], _ => rfl
  | _ :: _, [] => rfl
  | p :: ps, v :: vs => by
    rw [unplacedAll, allAccept, allAccept, accepts_unplaced p, allAccept_unplaced ps vs]

theorem allCaptured_unplaced : ∀ (ps : List Pattern) (vs : List Value),
    allCaptured config (unplacedAll ps) vs = allCaptured config ps vs
  | [], _ => rfl
  | _ :: _, [] => rfl
  | p :: ps, v :: vs => by
    rw [unplacedAll, allCaptured, allCaptured, captured_unplaced p, allCaptured_unplaced ps vs]

/-- A pattern with fields by position is reduced to what its sub-patterns mean for the values that are
found at their positions. -/
theorem tuple_reducesTo {hidden : List String} {place : Place} {constr : String}
    {fields : List (String × Value)} {vs : List Value} {ps qs : List Pattern} (s cs : Span)
    (hbind : bindPositions config (place.tagged constr) 0 ps = .ok qs)
    (hfinds : config.Finds fields 0 vs) (hlen : ps.length ≤ vs.length)
    (hopen : Open hidden (stepsAll ps))
    (hs : Shows apply hidden locals place (pure (.data constr fields))) :
    ReducesTo apply locals (.tuple s constr cs qs (some (place.tagged constr)))
      (allAccept config apply locals ps vs) (allCaptured config ps vs) := by
  have hbinds := positionsBind_of_bindPositions hbind
  have hps : unplacedAll qs = ps := hbinds.unplaced
  have hlenq : qs.length ≤ vs.length := by
    rw [← hps, unplacedAll_eq_map, List.length_map] at hlen
    exact hlen
  have hopenq : Open hidden (stepsAll qs) := by
    rw [← open_unplaced, hbinds.steps, open_unplaced]
    exact hopen
  have hbound : (Pattern.tuple s constr cs qs (some (place.tagged constr))).BoundAt config place :=
    ⟨rfl, hbinds.boundAt⟩
  have hreduces := hbound.reducesTo (open_cons.mpr ⟨fun n hn => (by cases hn), hopenq⟩) hs
  -- the value is data with the constructor of the pattern, so its test is true and the fields decide
  rw [accepts, captured, pure_bind, Tree.asData, pure_bind] at hreduces
  dsimp only at hreduces
  rw [if_pos rfl, positionsAccept_eq hlenq hfinds, positionsCaptured_eq hlenq hfinds] at hreduces
  rw [← allAccept_unplaced qs, ← allCaptured_unplaced qs, hps] at hreduces
  exact hreduces

/-- A value of `n` fields by position, its constructor declared with `n` types by position, and a pattern
with no more fields by position, where the numbers up to `n` are machine words. The names of the
positions differ; the value can be built, the constructor declared and the pattern bound to any place.
A sub-pattern finds the value and an instance of the type at its own position. Reducing the pattern
tests each sub-pattern against the value at its position and binds what it captures of it, unless it
binds or looks up a name that no program can spell. -/
theorem positions_meet {n : Nat} {vs : List Value} {tys : List Ty} {ps : List Pattern}
    (hn : config.tupleFieldBase.toNat + n ≤ UInt64.size) (hvs : vs.length = n) (htys : tys.length = n)
    (hps : ps.length ≤ n) (hfree : ∀ p ∈ ps, p.Free config) (s cs : Span) (constr : String) (env : Env)
    (place : Place) :
    (∀ i < n, ∃ name, config.positionalField i = .ok name ∧
      ∀ j < n, config.positionalField j = .ok name → j = i) ∧
    ∃ w env' qs, Value.tuple config constr vs = .ok w ∧
      env.declareTupleConstr config constr tys = .ok env' ∧
      (Pattern.tuple s constr cs ps none).bind config place =
        .ok (.tuple s constr cs qs (some (place.tagged constr))) ∧
      qs.map unplaced = ps ∧
      (∀ (i : Nat) (q : Pattern) (bound : Place) (ty : Ty), qs[i]? = some q → q.place? = some bound →
        tys[i]? = some ty →
          Checker.typeOfPlace bound ⟨env', config⟩ = Checker.instantiate ty ⟨env', config⟩) ∧
      ∀ (apply : Apply) (hidden : List String) (locals : Locals),
        Shows apply hidden locals place (pure w) →
        (∀ (i : Nat) (q : Pattern) (bound : Place) (v : Value), qs[i]? = some q →
          q.place? = some bound → vs[i]? = some v → Shows apply hidden locals bound (pure v)) ∧
        (Open hidden (stepsAll ps) →
          ReducesTo apply locals (.tuple s constr cs qs (some (place.tagged constr)))
            (allAccept config apply locals ps vs) (allCaptured config ps vs)) := by
  have hnames : ∀ i < n, config.positionalField i = .ok (config.fieldName i) := fun i hi =>
    Config.positionalField_of_lt (by omega)
  obtain ⟨fields, hfields, hvalues⟩ : ∃ fields, config.nameFields 0 vs = .ok fields ∧
      config.Finds fields 0 vs := Config.exists_nameFields vs 0 (by omega)
  obtain ⟨declared, hdeclared, htypes⟩ : ∃ declared, config.nameFields 0 tys = .ok declared ∧
      config.Finds declared 0 tys := Config.exists_nameFields tys 0 (by omega)
  obtain ⟨qs, hqs⟩ := succeeds_bindPositions_of_free hfree (by omega) (place.tagged constr)
  have hbinds := positionsBind_of_bindPositions hqs
  have hb := hbinds.boundAt
  have hc : (place.tagged constr).tag? = some constr := place.tag?_tagged constr
  constructor
  · intro i hi
    refine ⟨_, hnames i hi, fun j hj h => ?_⟩
    rw [hnames j hj] at h
    exact Config.fieldName_injective (Except.ok.inj h)
  · refine ⟨.data constr fields, env.declareConstr constr declared, qs, ?_, ?_, ?_, ?_, ?_, ?_⟩
    · rw [Value.tuple, hfields]
      rfl
    · rw [Env.declareTupleConstr, hdeclared]
      rfl
    · rw [Pattern.bind, hqs]
      rfl
    · rw [← unplacedAll_eq_map]
      exact hbinds.unplaced
    · intro i q bound ty hq hbound hty
      refine hb.typeOfPlace_eq hc hq hbound ?_
      have hlookup := htypes i ty hty
      rw [Nat.zero_add] at hlookup
      rw [Env.field?, Env.constr?, Env.declareConstr, List.lookup_cons_self]
      exact hlookup
    · intro apply hidden locals hs
      constructor
      · intro i q bound v hq hbound hv
        have hlookup := hvalues i v hv
        rw [Nat.zero_add] at hlookup
        exact hb.shows hc hq hbound (hs.tagged constr) hlookup
      · exact fun hopen => tuple_reducesTo s cs hqs hvalues (by omega) hopen hs

/-- The last two numbers that are machine words, behind a prefix that ends in a digit. The first field is
captured and the second compared. -/
theorem positions_meet_last_numbers :
    let config : Config := { tupleFieldPrefix := "f1", tupleFieldBase := 18446744073709551614 }
    let vs := [Value.literal (.int 3), .literal (.int 7)]
    let tys := [Ty.constant "Int", .constant "Int"]
    let ps := [Pattern.capture default "x" none none, .equal default (.literal (.int 7)) none]
    let place := Place.ofArgument ⟨"%arg1", .constant "Pair"⟩
    config.tupleFieldBase.toNat + 2 ≤ UInt64.size ∧ (∀ p ∈ ps, p.Free config) ∧
      ∃ w env' qs, Value.tuple config "Pair" vs = .ok w ∧
        Env.declareTupleConstr {} config "Pair" tys = .ok env' ∧
        (Pattern.tuple default "Pair" default ps none).bind config place =
          .ok (.tuple default "Pair" default qs (some (place.tagged "Pair"))) ∧
        ReducesTo (fun n _ => throw (.unboundSymbol n)) [("%arg1", w)]
          (.tuple default "Pair" default qs (some (place.tagged "Pair"))) (pure true)
          (pure [("x", .literal (.int 3))]) := by
  intro config vs tys ps place
  have hn : config.tupleFieldBase.toNat + 2 ≤ UInt64.size := by decide
  have hfree : ∀ p ∈ ps, p.Free config := by
    rw [List.forall_mem_cons, List.forall_mem_singleton]
    exact ⟨(succeeds_bind _ place).mp ⟨_, rfl⟩, (succeeds_bind _ place).mp ⟨_, rfl⟩⟩
  have hvs : vs.length = 2 := rfl
  have htys : tys.length = 2 := rfl
  have hps : ps.length ≤ 2 := Nat.le_refl 2
  obtain ⟨-, w, env', qs, hw, henv, hbind, -, -, hmeet⟩ :=
    positions_meet hn hvs htys hps hfree default default "Pair" {} place
  have hs : Shows (fun n _ => throw (.unboundSymbol n)) ["%arg1"] [("%arg1", w)] place (pure w) :=
    Shows.argument (List.mem_singleton.mpr rfl) List.lookup_cons_self
  have hopen : Open ["%arg1"] (stepsAll ps) := by
    refine open_cons.mpr ⟨fun n hname => ?_, open_cons.mpr ⟨fun n hname => ?_, fun s hs => ?_⟩⟩
    · cases hname
      decide
    · cases hname
    · cases hs
  exact ⟨hn, hfree, w, env', qs, hw, henv, hbind, (hmeet _ _ _ hs).2 hopen⟩

end Pattern
end Clausal
