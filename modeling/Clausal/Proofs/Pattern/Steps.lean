import Clausal.Proofs.Pattern.Binding

/-!
# Patterns as rows of steps

A pattern is worked off in pre-order: it captures, compares, or tests for a constructor and goes on
with the fields. What the passes over a pattern do apart from types depends on this row of steps only.
Binding gives each step its place and changes nothing else in the row.
-/
namespace Clausal

/-- The placeholder that a place starts from. -/
def Place.root : Place → Argument
  | .argument arg _ => arg
  | .field parent _ _ => parent.root

@[simp] theorem Place.root_tagged (place : Place) (c : String) : (place.tagged c).root = place.root := by
  cases place <;> rfl

/-- What a node of a pattern does with the value at its place. -/
inductive Step where
  | capture (name : String) (place : Option Place)
  | equal (expected : Expected) (place : Option Place)
  | tag (constr : String) (place : Option Place)

namespace Step

/-- The name that a step binds. -/
def captured? : Step → Option String
  | .capture n _ => some n
  | .equal _ _ => none
  | .tag _ _ => none

/-- The name that a step looks up. -/
def compared? : Step → Option String
  | .capture _ _ => none
  | .equal (.literal _) _ => none
  | .equal (.name n) _ => some n
  | .tag _ _ => none

/-- The place of a step. -/
def place? : Step → Option Place
  | .capture _ place => place
  | .equal _ place => place
  | .tag _ place => place

/-- The step decides whether its clause is taken. -/
def isTest : Step → Bool
  | .capture _ _ => false
  | .equal _ _ => true
  | .tag _ _ => true

/-- The step without its place. -/
def unplaced : Step → Step
  | .capture n _ => .capture n none
  | .equal e _ => .equal e none
  | .tag c _ => .tag c none

@[simp] theorem captured?_unplaced (s : Step) : s.unplaced.captured? = s.captured? := by
  cases s <;> rfl

@[simp] theorem compared?_unplaced (s : Step) : s.unplaced.compared? = s.compared? := by
  rcases s with _ | ⟨_ | _, _⟩ | _ <;> rfl

@[simp] theorem isTest_unplaced (s : Step) : s.unplaced.isTest = s.isTest := by
  cases s <;> rfl

end Step

namespace Pattern

mutual

/-- The steps of a pattern, a constructor before its fields. -/
def steps : Pattern → List Step
  | .ignore _ => []
  | .capture _ n _ place => [.capture n place]
  | .equal _ e place => [.equal e place]
  | .record _ c _ fields place => .tag c place :: fieldSteps fields
  | .tuple _ c _ fields place => .tag c place :: stepsAll fields
  | .group _ _ => []

/-- The steps of patterns from left to right. -/
def stepsAll : List Pattern → List Step
  | [] => []
  | p :: ps => steps p ++ stepsAll ps

/-- The steps of the patterns of fields from left to right. -/
def fieldSteps : List FieldPattern → List Step
  | [] => []
  | ⟨_, _, p⟩ :: fs => steps p ++ fieldSteps fs

end

end Pattern

/-! ## Captures -/

/-- The names a pattern captures, in order. -/
def Pattern.captures (p : Pattern) : List String :=
  p.steps.filterMap Step.captured?

/-- The names that patterns capture, in order. -/
def Pattern.capturesAll (ps : List Pattern) : List String :=
  (Pattern.stepsAll ps).filterMap Step.captured?

/-- The names that the patterns of fields capture, in order. -/
def Pattern.fieldCaptures (fs : List FieldPattern) : List String :=
  (Pattern.fieldSteps fs).filterMap Step.captured?

namespace Pattern

variable {s cs : Span} {constr : String} {place : Option Place}

theorem captures_equal {e : Expected} : (Pattern.equal s e place).captures = [] := rfl

theorem captures_record {fs : List FieldPattern} :
    (Pattern.record s constr cs fs place).captures = fieldCaptures fs := rfl

theorem captures_tuple {ps : List Pattern} :
    (Pattern.tuple s constr cs ps place).captures = capturesAll ps := rfl

theorem fieldCaptures_cons {n : String} {p : Pattern} {fs : List FieldPattern} :
    fieldCaptures (⟨n, s, p⟩ :: fs) = p.captures ++ fieldCaptures fs :=
  List.filterMap_append

theorem capturesAll_cons {p : Pattern} {ps : List Pattern} :
    capturesAll (p :: ps) = p.captures ++ capturesAll ps :=
  List.filterMap_append

end Pattern

/-! ## Binding -/

/-- The name of the field at a position, where its number is a machine word. -/
def Config.fieldName (config : Config) (position : Nat) : String :=
  config.tupleFieldPrefix ++ toString (config.tupleFieldBase.toNat + position)

theorem Config.eq_fieldName {config : Config} {position : Nat} {name : String}
    (h : config.positionalField position = .ok name) : name = config.fieldName position := by
  rw [positionalField] at h
  split at h
  · cases h
    rfl
  · cases h

namespace Pattern

variable (config : Config)

mutual

/-- Every node of the pattern has its place, the root the given one. -/
def BoundAt : Pattern → Place → Prop
  | .ignore _, _ => True
  | .capture _ _ _ p, place => p = some place
  | .equal _ _ p, place => p = some place
  | .record _ c _ fields p, place => p = some (place.tagged c) ∧ FieldsBoundAt (place.tagged c) fields
  | .tuple _ c _ fields p, place =>
    p = some (place.tagged c) ∧ PositionsBoundAt (place.tagged c) 0 fields
  | .group _ _, _ => False

/-- The patterns of named fields have the fields of a place. -/
def FieldsBoundAt (parent : Place) : List FieldPattern → Prop
  | [] => True
  | ⟨n, _, p⟩ :: fs => BoundAt p (parent.access n) ∧ FieldsBoundAt parent fs

/-- The patterns have the fields of a place from the given position on. -/
def PositionsBoundAt (parent : Place) : Nat → List Pattern → Prop
  | _, [] => True
  | position, p :: ps =>
    BoundAt p (parent.access (config.fieldName position)) ∧ PositionsBoundAt parent (position + 1) ps

end

/-- Each pattern has the placeholder at its position. -/
def AllBoundAt : List Pattern → List Argument → Prop
  | [], [] => True
  | p :: ps, a :: as => p.BoundAt config (.ofArgument a) ∧ AllBoundAt ps as
  | _, _ => False

variable {config}

mutual

theorem BoundAt.isBound : ∀ {p : Pattern} {place : Place}, p.BoundAt config place → p.isBound = true
  | .ignore _, _, _ => rfl
  | .capture _ _ _ _, _, h => by
    cases h
    rfl
  | .equal _ _ _, _, h => by
    cases h
    rfl
  | .record _ _ _ _ _, _, ⟨hp, h⟩ => by
    rw [Pattern.isBound, hp, h.fieldsBound]
    rfl
  | .tuple _ _ _ _ _, _, ⟨hp, h⟩ => by
    rw [Pattern.isBound, hp, h.allBound]
    rfl

theorem FieldsBoundAt.fieldsBound : ∀ {fs : List FieldPattern} {parent : Place},
    FieldsBoundAt config parent fs → Pattern.fieldsBound fs = true
  | [], _, _ => rfl
  | ⟨_, _, _⟩ :: _, _, ⟨hp, hfs⟩ => by
    rw [Pattern.fieldsBound, hp.isBound, hfs.fieldsBound]
    rfl

theorem PositionsBoundAt.allBound : ∀ {ps : List Pattern} {parent : Place} {position : Nat},
    PositionsBoundAt config parent position ps → Pattern.allBound ps = true
  | [], _, _, _ => rfl
  | _ :: _, _, _, ⟨hp, hps⟩ => by
    rw [Pattern.allBound, hp.isBound, hps.allBound]
    rfl

end

theorem AllBoundAt.allBound : ∀ {ps : List Pattern} {params : List Argument},
    AllBoundAt config ps params → Pattern.allBound ps = true
  | [], [], _ => rfl
  | _ :: _, _ :: _, ⟨hp, hps⟩ => by
    rw [Pattern.allBound, hp.isBound, hps.allBound]
    rfl

mutual

theorem BoundAt.root : ∀ {p : Pattern} {place : Place}, p.BoundAt config place →
    ∀ s ∈ p.steps, ∃ q, s.place? = some q ∧ q.root = place.root
  | .ignore _, place, _, s, hs => by cases hs
  | .capture _ _ _ _, place, h, s, hs => by
    cases List.mem_singleton.mp hs
    exact ⟨place, h, rfl⟩
  | .equal _ _ _, place, h, s, hs => by
    cases List.mem_singleton.mp hs
    exact ⟨place, h, rfl⟩
  | .record _ c _ fields _, place, ⟨hp, h⟩, s, hs => by
    rw [steps, List.mem_cons] at hs
    rcases hs with rfl | hs
    · exact ⟨place.tagged c, hp, place.root_tagged c⟩
    · rw [← place.root_tagged c]
      exact h.root s hs
  | .tuple _ c _ fields _, place, ⟨hp, h⟩, s, hs => by
    rw [steps, List.mem_cons] at hs
    rcases hs with rfl | hs
    · exact ⟨place.tagged c, hp, place.root_tagged c⟩
    · rw [← place.root_tagged c]
      exact h.root s hs

theorem FieldsBoundAt.root : ∀ {fs : List FieldPattern} {parent : Place},
    FieldsBoundAt config parent fs →
    ∀ s ∈ fieldSteps fs, ∃ q, s.place? = some q ∧ q.root = parent.root
  | [], _, _, s, hs => by cases hs
  | ⟨n, _, p⟩ :: fs, parent, ⟨hp, hfs⟩, s, hs => by
    rw [fieldSteps, List.mem_append] at hs
    rcases hs with hs | hs
    · exact hp.root s hs
    · exact hfs.root s hs

theorem PositionsBoundAt.root : ∀ {ps : List Pattern} {parent : Place} {position : Nat},
    PositionsBoundAt config parent position ps →
    ∀ s ∈ stepsAll ps, ∃ q, s.place? = some q ∧ q.root = parent.root
  | [], _, _, _, s, hs => by cases hs
  | p :: ps, parent, position, ⟨hp, hps⟩, s, hs => by
    rw [stepsAll, List.mem_append] at hs
    rcases hs with hs | hs
    · exact hp.root s hs
    · exact hps.root s hs

end

theorem AllBoundAt.root : ∀ {ps : List Pattern} {params : List Argument},
    AllBoundAt config ps params → ∀ s ∈ stepsAll ps, ∃ q, s.place? = some q ∧ q.root ∈ params
  | [], [], _, s, hs => by cases hs
  | p :: ps, a :: params, ⟨hp, hps⟩, s, hs => by
    rw [stepsAll, List.mem_append] at hs
    rcases hs with hs | hs
    · obtain ⟨q, hq, hroot⟩ := hp.root s hs
      exact ⟨q, hq, hroot ▸ List.mem_cons_self⟩
    · obtain ⟨q, hq, hroot⟩ := hps.root s hs
      exact ⟨q, hq, List.mem_cons_of_mem a hroot⟩

mutual

theorem Binds.boundAt : ∀ {p q : Pattern} {place : Place}, p.Binds config place q →
    q.BoundAt config place
  | _, _, _, .ignore => trivial
  | _, _, _, .capture => rfl
  | _, _, _, .equal => rfl
  | _, _, _, .record h => ⟨rfl, h.boundAt⟩
  | _, _, _, .tuple h => ⟨rfl, h.boundAt⟩

theorem FieldsBind.boundAt : ∀ {fs gs : List FieldPattern} {parent : Place},
    FieldsBind config parent fs gs → FieldsBoundAt config parent gs
  | _, _, _, .nil => trivial
  | _, _, _, .cons hp hfs => ⟨hp.boundAt, hfs.boundAt⟩

theorem PositionsBind.boundAt : ∀ {ps qs : List Pattern} {parent : Place} {position : Nat},
    PositionsBind config parent position ps qs → PositionsBoundAt config parent position qs
  | _, _, _, _, .nil => trivial
  | _, _, _, _, .cons hname hp hps => ⟨Config.eq_fieldName hname ▸ hp.boundAt, hps.boundAt⟩

end

mutual

theorem Binds.steps : ∀ {p q : Pattern} {place : Place}, p.Binds config place q →
    q.steps.map Step.unplaced = p.steps.map Step.unplaced
  | _, _, _, .ignore => rfl
  | _, _, _, .capture => rfl
  | _, _, _, .equal => rfl
  | _, _, _, .record h => congrArg (_ :: ·) h.steps
  | _, _, _, .tuple h => congrArg (_ :: ·) h.steps

theorem FieldsBind.steps : ∀ {fs gs : List FieldPattern} {parent : Place},
    FieldsBind config parent fs gs →
      (fieldSteps gs).map Step.unplaced = (fieldSteps fs).map Step.unplaced
  | _, _, _, .nil => rfl
  | _, _, _, .cons hp hfs => by simp only [fieldSteps, List.map_append, hp.steps, hfs.steps]

theorem PositionsBind.steps : ∀ {ps qs : List Pattern} {parent : Place} {position : Nat},
    PositionsBind config parent position ps qs →
      (stepsAll qs).map Step.unplaced = (stepsAll ps).map Step.unplaced
  | _, _, _, _, .nil => rfl
  | _, _, _, _, .cons _ hp hps => by simp only [stepsAll, List.map_append, hp.steps, hps.steps]

end

end Pattern
end Clausal
