import Clausal.Proofs.Matcher.Bound

/-!
# Where binding stops

Binding breaks a contract at a group, at a node that has its place already, and at a tuple with a field
whose number is no machine word. It reaches all nodes of the patterns that are left of a clause when
it is fitted to the placeholders, in all matchers inside bodies and scrutinees, and nothing else. So
whether a matcher can be bound is read off its syntax.
-/
namespace Clausal

variable (config : Config)

namespace Pattern

mutual

/-- The nodes of a pattern, each with what is below it. -/
def nodes : Pattern → List Pattern
  | .ignore s => [.ignore s]
  | .capture s n t place => [.capture s n t place]
  | .equal s e place => [.equal s e place]
  | .record s c cs fields place => .record s c cs fields place :: fieldNodes fields
  | .tuple s c cs fields place => .tuple s c cs fields place :: nodesAll fields
  | .group s members => .group s members :: nodesAll members

/-- The nodes of patterns. -/
def nodesAll : List Pattern → List Pattern
  | [] => []
  | p :: ps => nodes p ++ nodesAll ps

/-- The nodes of the patterns of fields. -/
def fieldNodes : List FieldPattern → List Pattern
  | [] => []
  | ⟨_, _, p⟩ :: fs => nodes p ++ fieldNodes fs

end

/-- Binding stops at the root of the pattern. -/
def Blocks : Pattern → Prop
  | .ignore _ => False
  | .capture _ _ _ place => place.isSome
  | .equal _ _ place => place.isSome
  | .record _ _ _ _ place => place.isSome
  | .tuple _ _ _ fields place =>
    place.isSome ∨ ∃ i < fields.length, UInt64.size ≤ config.tupleFieldBase.toNat + i
  | .group _ _ => True

end Pattern

mutual

/-- The patterns in an expression that are left when all clauses are fitted. -/
def Expr.fitted : Expr → List Pattern
  | .literal _ _ => []
  | .name _ _ => []
  | .call _ callee args => callee.fitted ++ Expr.fittedAll args
  | .cond _ c t e => c.fitted ++ t.fitted ++ e.fitted
  | .letIn _ _ _ value body => value.fitted ++ body.fitted
  | .access _ value _ _ => value.fitted
  | .matching _ scrutinees m => Expr.fittedAll scrutinees ++ m.fitted

/-- The patterns in expressions that are left when all clauses are fitted. -/
def Expr.fittedAll : List Expr → List Pattern
  | [] => []
  | e :: es => e.fitted ++ Expr.fittedAll es

/-- Of each clause as many patterns as the matcher has placeholders, and so in the bodies. -/
def Matcher.fitted : Matcher → List Pattern
  | ⟨_, _, params, _, clauses⟩ => Matcher.clauseFitted params.length clauses

/-- Of each clause the given number of patterns, and those that are left in its body. -/
def Matcher.clauseFitted (arity : Nat) : List Clause → List Pattern
  | [] => []
  | ⟨_, patterns, body⟩ :: clauses =>
    patterns.take arity ++ body.fitted ++ Matcher.clauseFitted arity clauses

end

/-- Some node that binding the matcher reaches stops it. -/
def Matcher.Blocked (m : Matcher) : Prop :=
  ∃ p ∈ m.fitted, ∃ node ∈ p.nodes, node.Blocks config

namespace Pattern

/-- No node of the pattern stops binding. -/
def Free (p : Pattern) : Prop :=
  ∀ node ∈ p.nodes, ¬ node.Blocks config

variable {config}

theorem succeeds_positionalField (position : Nat) :
    Succeeds (config.positionalField position) ↔
      ¬ UInt64.size ≤ config.tupleFieldBase.toNat + position := by
  rw [Config.positionalField, Nat.not_le]
  by_cases h : config.tupleFieldBase.toNat + position < UInt64.size
  · rw [if_pos h]
    exact iff_of_true ⟨_, rfl⟩ h
  · rw [if_neg h]
    refine iff_of_false ?_ h
    rintro ⟨_, he⟩
    cases he

mutual

/-- A pattern can be bound, at whatever place, exactly if no node of it stops binding. -/
theorem succeeds_bind : ∀ (p : Pattern) (place : Place),
    Succeeds (p.bind config place) ↔ p.Free config
  | .ignore s, place => by
    refine iff_of_true (succeeds_pure _) fun node hn hb => ?_
    rw [List.mem_singleton.mp hn] at hb
    exact hb
  | .capture s n t none, place => by
    refine iff_of_true (succeeds_pure _) fun node hn hb => ?_
    rw [List.mem_singleton.mp hn] at hb
    cases hb
  | .equal s e none, place => by
    refine iff_of_true (succeeds_pure _) fun node hn hb => ?_
    rw [List.mem_singleton.mp hn] at hb
    cases hb
  | .record s c cs fields none, place => by
    rw [Pattern.bind, succeeds_map, succeeds_bindFields fields]
    simp [Free, nodes, Blocks]
  | .tuple s c cs fields none, place => by
    rw [Pattern.bind, succeeds_map, succeeds_bindPositions fields]
    simp [Free, nodes, Blocks, and_comm]
  | .capture s n t (some q), place =>
    iff_of_false (not_succeeds_throw _) fun h => h _ List.mem_cons_self rfl
  | .equal s e (some q), place =>
    iff_of_false (not_succeeds_throw _) fun h => h _ List.mem_cons_self rfl
  | .record s c cs fields (some q), place =>
    iff_of_false (not_succeeds_throw _) fun h => h _ List.mem_cons_self rfl
  | .tuple s c cs fields (some q), place =>
    iff_of_false (not_succeeds_throw _) fun h => h _ List.mem_cons_self (.inl rfl)
  | .group s members, place =>
    iff_of_false (not_succeeds_throw _) fun h => h _ List.mem_cons_self trivial

theorem succeeds_bindFields : ∀ (fs : List FieldPattern) (parent : Place),
    Succeeds (bindFields config parent fs) ↔ ∀ node ∈ fieldNodes fs, ¬ node.Blocks config
  | [], parent => iff_of_true (succeeds_pure _) fun node hn => by cases hn
  | ⟨n, ns, p⟩ :: fs, parent => by
    rw [bindFields, succeeds_then fun _ => succeeds_map, succeeds_bind p,
      succeeds_bindFields fs, fieldNodes, List.forall_mem_append]
    rfl

theorem succeeds_bindPositions : ∀ (ps : List Pattern) (parent : Place) (position : Nat),
    Succeeds (bindPositions config parent position ps) ↔
      (∀ node ∈ nodesAll ps, ¬ node.Blocks config) ∧
        ∀ i < ps.length, ¬ UInt64.size ≤ config.tupleFieldBase.toNat + (position + i)
  | [], parent, position =>
    iff_of_true (succeeds_pure _) ⟨fun _ hn => (by cases hn), fun _ hi => (by cases hi)⟩
  | p :: ps, parent, position => by
    have hnumbers : (∀ i < (p :: ps).length,
        ¬ UInt64.size ≤ config.tupleFieldBase.toNat + (position + i)) ↔
        ¬ UInt64.size ≤ config.tupleFieldBase.toNat + position ∧
          ∀ i < ps.length, ¬ UInt64.size ≤ config.tupleFieldBase.toNat + (position + 1 + i) := by
      rw [List.length_cons, Nat.forall_lt_succ_left]
      simp only [Nat.add_zero, Nat.add_assoc, Nat.add_comm 1]
    have hrest (name : String) : Succeeds (do
        let q ← p.bind config (parent.access name)
        return q :: (← bindPositions config parent (position + 1) ps)) ↔ p.Free config ∧
          (∀ node ∈ nodesAll ps, ¬ node.Blocks config) ∧
          ∀ i < ps.length, ¬ UInt64.size ≤ config.tupleFieldBase.toNat + (position + 1 + i) := by
      rw [succeeds_then fun _ => succeeds_map, succeeds_bind p, succeeds_bindPositions ps]
    rw [bindPositions, succeeds_then hrest, succeeds_positionalField, hnumbers, nodesAll,
      List.forall_mem_append]
    exact ⟨fun ⟨hn, hp, hps, hns⟩ => ⟨⟨hp, hps⟩, hn, hns⟩,
      fun ⟨⟨hp, hps⟩, hn, hns⟩ => ⟨hn, hp, hps, hns⟩⟩

end

theorem succeeds_bindAll : ∀ (ps : List Pattern) (params : List Argument),
    Succeeds (bindAll config ps params) ↔ ∀ p ∈ ps.take params.length, p.Free config
  | [], params => by
    rw [List.take_nil]
    exact iff_of_true (succeeds_pure _) fun p hp => by cases hp
  | _ :: _, [] => iff_of_true (succeeds_pure _) fun p hp => by cases hp
  | p :: ps, a :: params => by
    rw [bindAll, succeeds_then fun _ => succeeds_map, succeeds_bind p, succeeds_bindAll ps,
      List.length_cons, List.take_succ_cons, List.forall_mem_cons]

/-- Patterns that ignore their value and stand in for missing ones do not stop binding. -/
theorem succeeds_bindAll_fitTo (span : Span) (ps : List Pattern) (params : List Argument) :
    Succeeds (bindAll config (fitTo params.length span ps) params) ↔
      ∀ p ∈ ps.take params.length, p.Free config := by
  have htake : (fitTo params.length span ps).take params.length = fitTo params.length span ps :=
    List.take_of_length_le (Nat.le_of_eq (length_fitTo _ _ _))
  rw [succeeds_bindAll, htake, fitTo, List.forall_mem_append]
  refine and_iff_left fun p hp node hn hb => ?_
  rw [List.eq_of_mem_replicate hp] at hn
  rw [List.mem_singleton.mp hn] at hb
  exact hb

end Pattern

variable {config}

mutual

theorem Expr.succeeds_bindMatchers : ∀ e : Expr,
    Succeeds (Expr.bindMatchers config e) ↔ ∀ p ∈ e.fitted, p.Free config
  | .literal _ _ => iff_of_true (succeeds_pure _) fun p hp => by cases hp
  | .name _ _ => iff_of_true (succeeds_pure _) fun p hp => by cases hp
  | .call _ callee args => by
    rw [Expr.bindMatchers, succeeds_then fun _ => succeeds_map, Expr.succeeds_bindMatchers callee,
      Expr.succeeds_bindMatchersAll args, Expr.fitted, List.forall_mem_append]
  | .cond _ c t e => by
    rw [Expr.bindMatchers, succeeds_then fun _ => succeeds_then fun _ => succeeds_map,
      Expr.succeeds_bindMatchers c, Expr.succeeds_bindMatchers t, Expr.succeeds_bindMatchers e,
      Expr.fitted, List.forall_mem_append, List.forall_mem_append, and_assoc]
  | .letIn _ _ _ value body => by
    rw [Expr.bindMatchers, succeeds_then fun _ => succeeds_map, Expr.succeeds_bindMatchers value,
      Expr.succeeds_bindMatchers body, Expr.fitted, List.forall_mem_append]
  | .access _ value _ _ => by
    rw [Expr.bindMatchers, succeeds_map, Expr.succeeds_bindMatchers value, Expr.fitted]
  | .matching _ scrutinees m => by
    rw [Expr.bindMatchers, succeeds_then fun _ => succeeds_map,
      Expr.succeeds_bindMatchersAll scrutinees, Matcher.succeeds_bind m, Expr.fitted,
      List.forall_mem_append]

theorem Expr.succeeds_bindMatchersAll : ∀ es : List Expr,
    Succeeds (Expr.bindMatchersAll config es) ↔ ∀ p ∈ Expr.fittedAll es, p.Free config
  | [] => iff_of_true (succeeds_pure _) fun p hp => by cases hp
  | e :: es => by
    rw [Expr.bindMatchersAll, succeeds_then fun _ => succeeds_map, Expr.succeeds_bindMatchers e,
      Expr.succeeds_bindMatchersAll es, Expr.fittedAll, List.forall_mem_append]

theorem Matcher.succeeds_bind : ∀ m : Matcher,
    Succeeds (m.bind config) ↔ ∀ p ∈ m.fitted, p.Free config
  | ⟨_, _, params, _, clauses⟩ => by
    rw [Matcher.bind, succeeds_map, Matcher.succeeds_bindClauses params clauses, Matcher.fitted]

theorem Matcher.succeeds_bindClauses (params : List Argument) : ∀ cs : List Clause,
    Succeeds (Matcher.bindClauses config params cs) ↔
      ∀ p ∈ Matcher.clauseFitted params.length cs, p.Free config
  | [] => iff_of_true (succeeds_pure _) fun p hp => by cases hp
  | ⟨_, ps, body⟩ :: cs => by
    rw [Matcher.bindClauses, succeeds_then fun _ => succeeds_then fun _ => succeeds_map,
      Pattern.succeeds_bindAll_fitTo, Expr.succeeds_bindMatchers body,
      Matcher.succeeds_bindClauses params cs, Matcher.clauseFitted, List.forall_mem_append,
      List.forall_mem_append, and_assoc]

end

theorem Matcher.succeeds_bind_iff (m : Matcher) : Succeeds (m.bind config) ↔ ¬ m.Blocked config := by
  rw [Matcher.succeeds_bind, Matcher.Blocked]
  simp only [Pattern.Free, not_exists, not_and]

end Clausal
