import Clausal.Proofs.Matcher.Blocked

/-!
# Where bound patterns find their values

A node of a pattern is reached from the root by steps into the fields of constructors. Binding gives
each node the place at the end of its path: the placeholder of the argument, tested for every
constructor on the way and projected to every field. It fits the clauses of all matchers to their
placeholders, whether they stand at the root or inside bodies and scrutinees, and changes nothing else.
-/
namespace Clausal

/-- The place at the end of a path. Each step tests for a constructor and goes on to a field of it. -/
def Place.along (place : Place) : List (String × String) → Place
  | [] => place
  | (c, name) :: path => ((place.tagged c).access name).along path

variable (config : Config)

namespace Pattern

mutual

/-- The pattern without its places. -/
def unplaced : Pattern → Pattern
  | .ignore s => .ignore s
  | .capture s n t _ => .capture s n t none
  | .equal s e _ => .equal s e none
  | .record s c cs fields _ => .record s c cs (unplacedFields fields) none
  | .tuple s c cs fields _ => .tuple s c cs (unplacedAll fields) none
  | .group s members => .group s members

/-- The patterns without their places. -/
def unplacedAll : List Pattern → List Pattern
  | [] => []
  | p :: ps => unplaced p :: unplacedAll ps

/-- The fields without the places of their patterns. -/
def unplacedFields : List FieldPattern → List FieldPattern
  | [] => []
  | ⟨n, ns, p⟩ :: fs => ⟨n, ns, unplaced p⟩ :: unplacedFields fs

end

/-- A node of a pattern and the path to it: the constructor and the field of each step. -/
inductive At : Pattern → List (String × String) → Pattern → Prop where
  | root {p} : At p [] p
  | field {s c cs fields place n ns p path node} : ⟨n, ns, p⟩ ∈ fields → At p path node →
      At (.record s c cs fields place) ((c, n) :: path) node
  | position {s c cs fields place i n p path node} : fields[i]? = some p →
      config.positionalField i = .ok n → At p path node →
      At (.tuple s c cs fields place) ((c, n) :: path) node

/-- The place that the root of a pattern has if its value is found at the given place. -/
def ownPlace : Pattern → Place → Option Place
  | .ignore _, _ => none
  | .capture _ _ _ _, place => some place
  | .equal _ _ _, place => some place
  | .record _ c _ _ _, place => some (place.tagged c)
  | .tuple _ c _ _ _, place => some (place.tagged c)
  | .group _ _, _ => none

/-- Every node is at the end of a path, and has the place that the path leads to. -/
def PlacedFrom (p : Pattern) (place : Place) : Prop :=
  (∀ node ∈ p.nodes, ∃ path, p.At config path node) ∧
    ∀ path node, p.At config path node → node.place? = node.ownPlace (place.along path)

/-- The patterns of a clause as they are when it is bound to placeholders. -/
structure Fits (params : List Argument) (ps ps' : List Pattern) : Prop where
  length_eq : ps'.length = params.length
  /-- As many patterns of the clause as there are placeholders, and then patterns that ignore. -/
  originals : ∃ span, ps'.map unplaced =
    ps.take params.length ++ List.replicate (params.length - ps.length) (.ignore span)
  bound : ∀ p ∈ ps', p.isBound = true
  placed : ∀ (i : Nat) (a : Argument) (p : Pattern), params[i]? = some a → ps'[i]? = some p →
    p.PlacedFrom config (.ofArgument a)

end Pattern

/-! ## Paths of bound patterns -/

namespace Pattern

variable {config}

theorem FieldsBoundAt.of_mem {parent : Place} {n : String} {ns : Span} {p : Pattern} :
    ∀ {fs : List FieldPattern}, FieldsBoundAt config parent fs → ⟨n, ns, p⟩ ∈ fs →
      p.BoundAt config (parent.access n)
  | ⟨_, _, _⟩ :: _, ⟨hp, hfs⟩, h => by
    rcases List.mem_cons.mp h with h | h
    · cases h
      exact hp
    · exact hfs.of_mem h

theorem PositionsBoundAt.of_getElem? {parent : Place} {p : Pattern} :
    ∀ {ps : List Pattern} {position i : Nat}, PositionsBoundAt config parent position ps →
      ps[i]? = some p → p.BoundAt config (parent.access (config.fieldName (position + i)))
  | _ :: _, position, 0, ⟨hp, _⟩, h => by
    cases h
    exact hp
  | _ :: ps, position, i + 1, ⟨_, hps⟩, h => by
    have hrest := hps.of_getElem? (i := i) h
    rw [show position + (i + 1) = position + 1 + i by omega]
    exact hrest

/-- The way to a node of a bound pattern ends at its place. -/
theorem BoundAt.at {p node : Pattern} {path : List (String × String)} (hat : p.At config path node) :
    ∀ {place : Place}, p.BoundAt config place → node.BoundAt config (place.along path) := by
  induction hat with
  | root => exact fun h => h
  | field hmem _ ih => exact fun h => ih (h.2.of_mem hmem)
  | @position _ _ _ _ _ i _ _ _ _ hi hn _ ih =>
    intro place h
    have hp := h.2.of_getElem? hi
    rw [Nat.zero_add, ← Config.eq_fieldName hn] at hp
    exact ih hp

theorem BoundAt.place_eq : ∀ {p : Pattern} {place : Place},
    p.BoundAt config place → p.place? = p.ownPlace place
  | .ignore _, _, _ => rfl
  | .capture _ _ _ _, _, h => h
  | .equal _ _ _, _, h => h
  | .record _ _ _ _ _, _, h => h.1
  | .tuple _ _ _ _ _, _, h => h.1

mutual

/-- Every node of a pattern that was bound is at the end of a path. -/
theorem Binds.exists_at : ∀ {p q : Pattern} {place : Place}, p.Binds config place q →
    ∀ node ∈ q.nodes, ∃ path, q.At config path node
  | _, _, _, .ignore, node, hnode => ⟨[], List.mem_singleton.mp hnode ▸ .root⟩
  | _, _, _, .capture, node, hnode => ⟨[], List.mem_singleton.mp hnode ▸ .root⟩
  | _, _, _, .equal, node, hnode => ⟨[], List.mem_singleton.mp hnode ▸ .root⟩
  | _, _, _, @Binds.record _ _ c _ _ _ _ h, node, hnode => by
    rcases List.mem_cons.mp hnode with rfl | hnode
    · exact ⟨[], .root⟩
    · obtain ⟨n, ns, p, hmem, path, hat⟩ := h.exists_at node hnode
      exact ⟨(c, n) :: path, .field hmem hat⟩
  | _, _, _, @Binds.tuple _ _ c _ _ _ _ h, node, hnode => by
    rcases List.mem_cons.mp hnode with rfl | hnode
    · exact ⟨[], .root⟩
    · obtain ⟨i, name, p, hi, hname, path, hat⟩ := h.exists_at node hnode
      rw [Nat.zero_add] at hname
      exact ⟨(c, name) :: path, .position hi hname hat⟩

theorem FieldsBind.exists_at : ∀ {fs gs : List FieldPattern} {parent : Place},
    FieldsBind config parent fs gs → ∀ node ∈ fieldNodes gs,
      ∃ n ns p, ⟨n, ns, p⟩ ∈ gs ∧ ∃ path, p.At config path node
  | _, _, _, .nil, node, hnode => by cases hnode
  | _, _, _, .cons hp hfs, node, hnode => by
    rcases List.mem_append.mp hnode with hnode | hnode
    · exact ⟨_, _, _, List.mem_cons_self, hp.exists_at node hnode⟩
    · obtain ⟨n, ns, p, hmem, hat⟩ := hfs.exists_at node hnode
      exact ⟨n, ns, p, List.mem_cons_of_mem _ hmem, hat⟩

theorem PositionsBind.exists_at : ∀ {ps qs : List Pattern} {parent : Place} {position : Nat},
    PositionsBind config parent position ps qs → ∀ node ∈ nodesAll qs,
      ∃ (i : Nat) (name : String) (p : Pattern), qs[i]? = some p ∧
        config.positionalField (position + i) = .ok name ∧ ∃ path, p.At config path node
  | _, _, _, _, .nil, node, hnode => by cases hnode
  | _, _, _, position, .cons hname hp hps, node, hnode => by
    rcases List.mem_append.mp hnode with hnode | hnode
    · exact ⟨0, _, _, rfl, hname, hp.exists_at node hnode⟩
    · obtain ⟨i, name, p, hi, hname', hat⟩ := hps.exists_at node hnode
      rw [show position + 1 + i = position + (i + 1) by omega] at hname'
      exact ⟨i + 1, name, p, hi, hname', hat⟩

end

mutual

/-- Binding adds places, and only where there are none. -/
theorem Binds.unplaced : ∀ {p q : Pattern} {place : Place}, p.Binds config place q → q.unplaced = p
  | _, _, _, .ignore => rfl
  | _, _, _, .capture => rfl
  | _, _, _, .equal => rfl
  | _, _, _, .record h => by rw [Pattern.unplaced, h.unplaced]
  | _, _, _, .tuple h => by rw [Pattern.unplaced, h.unplaced]

theorem FieldsBind.unplaced : ∀ {fs gs : List FieldPattern} {parent : Place},
    FieldsBind config parent fs gs → unplacedFields gs = fs
  | _, _, _, .nil => rfl
  | _, _, _, .cons hp hfs => by rw [unplacedFields, hp.unplaced, hfs.unplaced]

theorem PositionsBind.unplaced : ∀ {ps qs : List Pattern} {parent : Place} {position : Nat},
    PositionsBind config parent position ps qs → unplacedAll qs = ps
  | _, _, _, _, .nil => rfl
  | _, _, _, _, .cons _ hp hps => by rw [unplacedAll, hp.unplaced, hps.unplaced]

end

theorem unplaced_of_bindAll : ∀ {ps qs : List Pattern} {params : List Argument},
    ps.length = params.length → bindAll config ps params = .ok qs → qs.map unplaced = ps
  | [], qs, [], _, h => by
    cases h
    rfl
  | p :: ps, qs, a :: params, hlen, h => by
    rw [bindAll] at h
    obtain ⟨q, hp, h⟩ := exists_of_bind_eq_ok h
    obtain ⟨qs', hps, h⟩ := exists_of_bind_eq_ok h
    cases h
    rw [List.map_cons, (binds_of_bind hp).unplaced, unplaced_of_bindAll (Nat.succ.inj hlen) hps]

theorem exists_bind_of_bindAll {a : Argument} {q : Pattern} :
    ∀ {ps qs : List Pattern} {params : List Argument} {i : Nat}, bindAll config ps params = .ok qs →
      params[i]? = some a → qs[i]? = some q → ∃ p : Pattern, p.bind config (.ofArgument a) = .ok q
  | [], qs, params, i, h, ha, hq => by
    cases h
    cases hq
  | _ :: _, qs, [], i, h, ha, hq => by cases ha
  | p :: ps, qs, a' :: params, i, h, ha, hq => by
    rw [bindAll] at h
    obtain ⟨q', hp, h⟩ := exists_of_bind_eq_ok h
    obtain ⟨qs', hps, h⟩ := exists_of_bind_eq_ok h
    cases h
    cases i with
    | zero =>
      cases ha
      cases hq
      exact ⟨p, hp⟩
    | succ i => exact exists_bind_of_bindAll (i := i) hps ha hq

theorem placedFrom_of_bind {p q : Pattern} {place : Place} (h : p.bind config place = .ok q) :
    q.PlacedFrom config place :=
  ⟨(binds_of_bind h).exists_at, fun _ _ hat => ((binds_of_bind h).boundAt.at hat).place_eq⟩

theorem allBound_iff : ∀ {ps : List Pattern},
    allBound ps = true ↔ ∀ p ∈ ps, p.isBound = true
  | [] => by simp [allBound]
  | p :: ps => by rw [allBound, Bool.and_eq_true, allBound_iff, List.forall_mem_cons]

theorem fits_of_bindAll {ps ps' : List Pattern} {params : List Argument} {span : Span}
    (h : bindAll config (fitTo params.length span ps) params = .ok ps') :
    Fits config params ps ps' := by
  have hlen : (fitTo params.length span ps).length = params.length := length_fitTo _ _ _
  have hunplaced : ps'.map unplaced = fitTo params.length span ps := unplaced_of_bindAll hlen h
  refine ⟨?_, ⟨_, hunplaced⟩, allBound_iff.mp (bindAll_spec hlen h).1.allBound, ?_⟩
  · rw [← hlen, ← hunplaced, List.length_map]
  · intro i a q ha hq
    obtain ⟨p, hp⟩ := exists_bind_of_bindAll h ha hq
    exact placedFrom_of_bind hp

end Pattern

/-! ## All matchers of a program -/

section

variable (R : List Argument → List Pattern → List Pattern → Prop)

mutual

/-- The same expression, but for the patterns of the clauses inside it. How these are related depends
on the placeholders of their matcher. -/
inductive Expr.SameBut : Expr → Expr → Prop where
  | literal {s l} : Expr.SameBut (.literal s l) (.literal s l)
  | name {s n} : Expr.SameBut (.name s n) (.name s n)
  | call {s callee callee' args args'} : Expr.SameBut callee callee' →
      Expr.SameButAll args args' → Expr.SameBut (.call s callee args) (.call s callee' args')
  | cond {s c c' t t' e e'} : Expr.SameBut c c' → Expr.SameBut t t' → Expr.SameBut e e' →
      Expr.SameBut (.cond s c t e) (.cond s c' t' e')
  | letIn {s n ns value value' body body'} : Expr.SameBut value value' → Expr.SameBut body body' →
      Expr.SameBut (.letIn s n ns value body) (.letIn s n ns value' body')
  | access {s value value' f fs} : Expr.SameBut value value' →
      Expr.SameBut (.access s value f fs) (.access s value' f fs)
  | matching {s scrutinees scrutinees' m m'} : Expr.SameButAll scrutinees scrutinees' →
      Matcher.SameBut m m' → Expr.SameBut (.matching s scrutinees m) (.matching s scrutinees' m')

/-- The same expressions, but for the patterns of the clauses inside them. -/
inductive Expr.SameButAll : List Expr → List Expr → Prop where
  | nil : Expr.SameButAll [] []
  | cons {e e' es es'} : Expr.SameBut e e' → Expr.SameButAll es es' →
      Expr.SameButAll (e :: es) (e' :: es')

/-- The same matcher, but for the patterns of its clauses and of the clauses inside them. -/
inductive Matcher.SameBut : Matcher → Matcher → Prop where
  | mk {n ns params result clauses clauses'} : Matcher.ClausesSameBut params clauses clauses' →
      Matcher.SameBut ⟨n, ns, params, result, clauses⟩ ⟨n, ns, params, result, clauses'⟩

/-- The same clauses one by one, but for their patterns and those inside their bodies. -/
inductive Matcher.ClausesSameBut : List Argument → List Clause → List Clause → Prop where
  | nil {params} : Matcher.ClausesSameBut params [] []
  | cons {params s ps ps' body body' clauses clauses'} : R params ps ps' →
      Expr.SameBut body body' → Matcher.ClausesSameBut params clauses clauses' →
      Matcher.ClausesSameBut params (⟨s, ps, body⟩ :: clauses) (⟨s, ps', body'⟩ :: clauses')

end

end

variable {config}

mutual

theorem Expr.Binds.fits : ∀ {e e' : Expr}, e.Binds config e' → e.SameBut (Pattern.Fits config) e'
  | _, _, .literal => .literal
  | _, _, .name => .name
  | _, _, .call hcallee hargs => .call hcallee.fits hargs.fits
  | _, _, .cond hc ht he => .cond hc.fits ht.fits he.fits
  | _, _, .letIn hvalue hbody => .letIn hvalue.fits hbody.fits
  | _, _, .access hvalue => .access hvalue.fits
  | _, _, .matching hscrutinees hm => .matching hscrutinees.fits hm.fits

theorem Expr.BindsAll.fits : ∀ {es es' : List Expr}, Expr.BindsAll config es es' →
    Expr.SameButAll (Pattern.Fits config) es es'
  | _, _, .nil => .nil
  | _, _, .cons he hes => .cons he.fits hes.fits

theorem Matcher.Binds.fits : ∀ {m m' : Matcher}, m.Binds config m' →
    m.SameBut (Pattern.Fits config) m'
  | _, _, .mk hclauses => .mk hclauses.fits

theorem Matcher.ClausesBind.fits : ∀ {params : List Argument} {cs cs' : List Clause},
    Matcher.ClausesBind config params cs cs' →
      Matcher.ClausesSameBut (Pattern.Fits config) params cs cs'
  | _, _, _, .nil => .nil
  | _, _, _, .cons hps hbody hclauses =>
    .cons (Pattern.fits_of_bindAll hps) hbody.fits hclauses.fits

end

/-- A matcher without a node that stops binding is bound: it stays as it is but for the patterns of its
clauses and of the clauses inside it, and these fit the placeholders of their matcher, each node at the
place that the path to it leads to. -/
theorem Matcher.bind_places {m : Matcher} (h : ¬ m.Blocked config) :
    ∃ m', m.bind config = .ok m' ∧ m.SameBut (Pattern.Fits config) m' := by
  obtain ⟨m', hm'⟩ := (Matcher.succeeds_bind_iff m).mpr h
  exact ⟨m', hm', (Matcher.binds_of_bind hm').fits⟩

/-- A matcher inside the body of a clause with too few patterns, and in that clause a field by position
under a named field. -/
theorem Matcher.bind_places_nested :
    let inner : Matcher := ⟨"inner", default, [⟨"%arg3", .constant "Int"⟩], .constant "Int",
      [⟨default, [.capture default "y" none none, .group default []], .name default "y"⟩]⟩
    let pair := Pattern.record default "Pair" default [⟨"first", default,
      .tuple default "Some" default [.ignore default, .capture default "x" none none] none⟩] none
    let m : Matcher := ⟨"outer", default,
      [⟨"%arg1", .constant "Pair"⟩, ⟨"%arg2", .constant "Int"⟩], .constant "Int",
      [⟨default, [pair], .cond default (.name default "x")
        (.matching default [.name default "x"] inner) (.literal default (.int 0))⟩]⟩
    ¬ m.Blocked {} ∧ ∃ m', m.bind {} = .ok m' ∧ m.SameBut (Pattern.Fits {}) m' := by
  intro inner pair m
  have hfree : ¬ m.Blocked {} := (Matcher.succeeds_bind_iff m).mp ⟨_, rfl⟩
  exact ⟨hfree, bind_places hfree⟩

end Clausal
