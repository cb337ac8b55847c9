import Clausal.Pattern.Bind
import Clausal.Proofs.Control

/-!
# What binding makes of a pattern

A run of binding that succeeds, as a relation between the pattern before, its place and the pattern
behind it. What binding keeps of a pattern, and what it adds, is shown by induction on this relation.
-/
namespace Clausal.Pattern

variable (config : Config)

mutual

/-- What binding to a place makes of a pattern. -/
inductive Binds : Pattern → Place → Pattern → Prop where
  | ignore {s place} : Binds (.ignore s) place (.ignore s)
  | capture {s n t place} : Binds (.capture s n t none) place (.capture s n t (some place))
  | equal {s e place} : Binds (.equal s e none) place (.equal s e (some place))
  | record {s c cs fields fields' place} : FieldsBind (place.tagged c) fields fields' →
      Binds (.record s c cs fields none) place (.record s c cs fields' (some (place.tagged c)))
  | tuple {s c cs fields fields' place} : PositionsBind (place.tagged c) 0 fields fields' →
      Binds (.tuple s c cs fields none) place (.tuple s c cs fields' (some (place.tagged c)))

/-- What binding to the fields of a place makes of the patterns of named fields. -/
inductive FieldsBind : Place → List FieldPattern → List FieldPattern → Prop where
  | nil {parent} : FieldsBind parent [] []
  | cons {parent n ns p q fs gs} : Binds p (parent.access n) q → FieldsBind parent fs gs →
      FieldsBind parent (⟨n, ns, p⟩ :: fs) (⟨n, ns, q⟩ :: gs)

/-- What binding to the fields of a place from the given position on makes of patterns. -/
inductive PositionsBind : Place → Nat → List Pattern → List Pattern → Prop where
  | nil {parent position} : PositionsBind parent position [] []
  | cons {parent position name p q ps qs} : config.positionalField position = .ok name →
      Binds p (parent.access name) q → PositionsBind parent (position + 1) ps qs →
      PositionsBind parent position (p :: ps) (q :: qs)

end

variable {config}

mutual

theorem binds_of_bind : ∀ {p q : Pattern} {place : Place}, p.bind config place = .ok q →
    p.Binds config place q
  | .ignore s, q, place, h => by
    cases h
    exact .ignore
  | .capture s n t none, q, place, h => by
    cases h
    exact .capture
  | .equal s e none, q, place, h => by
    cases h
    exact .equal
  | .record s c cs fields none, q, place, h => by
    rw [Pattern.bind] at h
    obtain ⟨fields', hfields, h⟩ := exists_of_bind_eq_ok h
    cases h
    exact .record (fieldsBind_of_bindFields hfields)
  | .tuple s c cs fields none, q, place, h => by
    rw [Pattern.bind] at h
    obtain ⟨fields', hfields, h⟩ := exists_of_bind_eq_ok h
    cases h
    exact .tuple (positionsBind_of_bindPositions hfields)
  | .capture _ _ _ (some _), _, _, h => by cases h
  | .equal _ _ (some _), _, _, h => by cases h
  | .record _ _ _ _ (some _), _, _, h => by cases h
  | .tuple _ _ _ _ (some _), _, _, h => by cases h
  | .group _ _, _, _, h => by cases h

theorem fieldsBind_of_bindFields : ∀ {fs gs : List FieldPattern} {parent : Place},
    bindFields config parent fs = .ok gs → FieldsBind config parent fs gs
  | [], gs, parent, h => by
    cases h
    exact .nil
  | ⟨n, ns, p⟩ :: fs, gs, parent, h => by
    rw [bindFields] at h
    obtain ⟨q, hp, h⟩ := exists_of_bind_eq_ok h
    obtain ⟨gs', hfs, h⟩ := exists_of_bind_eq_ok h
    cases h
    exact .cons (binds_of_bind hp) (fieldsBind_of_bindFields hfs)

theorem positionsBind_of_bindPositions :
    ∀ {ps qs : List Pattern} {parent : Place} {position : Nat},
      bindPositions config parent position ps = .ok qs →
        PositionsBind config parent position ps qs
  | [], qs, parent, position, h => by
    cases h
    exact .nil
  | p :: ps, qs, parent, position, h => by
    rw [bindPositions] at h
    obtain ⟨name, hname, h⟩ := exists_of_bind_eq_ok h
    obtain ⟨q, hp, h⟩ := exists_of_bind_eq_ok h
    obtain ⟨qs', hps, h⟩ := exists_of_bind_eq_ok h
    cases h
    exact .cons hname (binds_of_bind hp) (positionsBind_of_bindPositions hps)

end

end Clausal.Pattern
