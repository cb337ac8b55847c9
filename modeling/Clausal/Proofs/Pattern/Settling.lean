import Clausal.Pattern.Group
import Mathlib.Data.List.Forall2

/-!
# Groups are settled from the inside out

What a resolver is asked is written down beside its state, and compared with the groups of the pattern: it is
asked once for each of them, for those inside a group before the group itself and from left to right, and
what it is given has been settled before. Its answers take the places of the groups, and nothing else in the
pattern changes.
-/
namespace Clausal.Pattern

/-- A question that a resolver was asked, and what it answered. -/
structure GroupCall where
  members : List Pattern
  answer : Pattern

/-! ## The groups of a pattern -/

mutual

/-- The members of each group in the pattern, inner groups first and from left to right. -/
def groups : Pattern → List (List Pattern)
  | .ignore _ => []
  | .capture _ _ _ _ => []
  | .equal _ _ _ => []
  | .record _ _ _ fs _ => groupsFields fs
  | .tuple _ _ _ fs _ => groupsAll fs
  | .group _ ms => groupsAll ms ++ [ms]

def groupsAll : List Pattern → List (List Pattern)
  | [] => []
  | p :: ps => groups p ++ groupsAll ps

def groupsFields : List FieldPattern → List (List Pattern)
  | [] => []
  | ⟨_, _, p⟩ :: fs => groups p ++ groupsFields fs

end

mutual

/-- The second pattern is the first one up to its groups, each of which is replaced by some pattern with the
same source text. -/
inductive Kept : Pattern → Pattern → Prop where
  | ignore {s} : Kept (.ignore s) (.ignore s)
  | capture {s n t p} : Kept (.capture s n t p) (.capture s n t p)
  | equal {s e p} : Kept (.equal s e p) (.equal s e p)
  | record {s c cs p fs fs'} : KeptFields fs fs' → Kept (.record s c cs fs p) (.record s c cs fs' p)
  | tuple {s c cs p fs fs'} : KeptAll fs fs' → Kept (.tuple s c cs fs p) (.tuple s c cs fs' p)
  | group {s ms q} : q.span = s → Kept (.group s ms) q

inductive KeptAll : List Pattern → List Pattern → Prop where
  | nil : KeptAll [] []
  | cons {p q ps qs} : Kept p q → KeptAll ps qs → KeptAll (p :: ps) (q :: qs)

inductive KeptFields : List FieldPattern → List FieldPattern → Prop where
  | nil : KeptFields [] []
  | cons {n ns p q fs fs'} : Kept p q → KeptFields fs fs' →
      KeptFields (⟨n, ns, p⟩ :: fs) (⟨n, ns, q⟩ :: fs')

end

mutual

/-- The pattern is settled by these calls: each group by one call, behind those for the groups inside it,
with its members as they are by then, and its answer takes the place of the group. -/
inductive SettlesBy : Pattern → List GroupCall → Pattern → Prop where
  | ignore {s} : SettlesBy (.ignore s) [] (.ignore s)
  | capture {s n t p} : SettlesBy (.capture s n t p) [] (.capture s n t p)
  | equal {s e p} : SettlesBy (.equal s e p) [] (.equal s e p)
  | record {s c cs p fs calls fs'} : SettlesFieldsBy fs calls fs' →
      SettlesBy (.record s c cs fs p) calls (.record s c cs fs' p)
  | tuple {s c cs p fs calls fs'} : SettlesAllBy fs calls fs' →
      SettlesBy (.tuple s c cs fs p) calls (.tuple s c cs fs' p)
  | group {s ms calls ms' a} : SettlesAllBy ms calls ms' →
      SettlesBy (.group s ms) (calls ++ [⟨ms', a⟩]) (a.withSpan s)

inductive SettlesAllBy : List Pattern → List GroupCall → List Pattern → Prop where
  | nil : SettlesAllBy [] [] []
  | cons {p q ps qs calls calls'} : SettlesBy p calls q → SettlesAllBy ps calls' qs →
      SettlesAllBy (p :: ps) (calls ++ calls') (q :: qs)

inductive SettlesFieldsBy : List FieldPattern → List GroupCall → List FieldPattern → Prop where
  | nil : SettlesFieldsBy [] [] []
  | cons {n ns p q fs fs' calls calls'} : SettlesBy p calls q → SettlesFieldsBy fs calls' fs' →
      SettlesFieldsBy (⟨n, ns, p⟩ :: fs) (calls ++ calls') (⟨n, ns, q⟩ :: fs')

end

/-! ## Runs with their calls -/

section Runs

variable {σ α β : Type} {r : List Pattern → StateM σ Pattern}

/-- The resolver, with every call written down behind the earlier ones. -/
def logged (r : List Pattern → StateM σ Pattern) (members : List Pattern) :
    StateM (σ × List GroupCall) Pattern := fun (st, log) =>
  let (a, st') := r members st
  (a, st', log ++ [⟨members, a⟩])

/-- The resolver, asked these questions one after another, gives these answers. -/
def Answers (r : List Pattern → StateM σ Pattern) (st : σ) (calls : List GroupCall) (st' : σ) : Prop :=
  (calls.map (·.members)).mapM r st = (calls.map (·.answer), st')

/-- Two runs, the second of which writes down the calls of the resolver, have one result and leave the
resolver in one state, which is what the calls by themselves lead to. -/
def Traced (r : List Pattern → StateM σ Pattern) (plain : StateM σ α)
    (taped : StateM (σ × List GroupCall) α) (Q : List GroupCall → α → Prop) : Prop :=
  ∀ st log, ∃ calls, taped (st, log) = ((plain st).1, (plain st).2, log ++ calls) ∧
    Answers r st calls (plain st).2 ∧ Q calls (plain st).1

theorem bind_run (x : StateM σ α) (f : α → StateM σ β) (st : σ) :
    (x >>= f) st = f (x st).1 (x st).2 :=
  rfl

theorem pure_run (a : α) (st : σ) : (pure a : StateM σ α) st = (a, st) :=
  rfl

theorem Answers.append {st st' st'' : σ} {calls calls' : List GroupCall} (h : Answers r st calls st')
    (h' : Answers r st' calls' st'') : Answers r st (calls ++ calls') st'' := by
  rw [Answers, List.map_append, List.map_append, List.mapM_append, bind_run, h, bind_run, h', pure_run]

theorem traced_pure {Q : List GroupCall → α → Prop} {a : α} (h : Q [] a) : Traced r (pure a) (pure a) Q :=
  fun _ log => ⟨[], by rw [List.append_nil]; rfl, rfl, h⟩

theorem Traced.bind {Q : List GroupCall → α → Prop} {Q' : List GroupCall → β → Prop} {x : StateM σ α}
    {x' : StateM (σ × List GroupCall) α} {f : α → StateM σ β} {f' : α → StateM (σ × List GroupCall) β}
    (h : Traced r x x' Q)
    (hf : ∀ calls a, Q calls a → Traced r (f a) (f' a) fun calls' b => Q' (calls ++ calls') b) :
    Traced r (x >>= f) (x' >>= f') Q' := by
  intro st log
  obtain ⟨calls, hrun, hanswers, hq⟩ := h st log
  obtain ⟨calls', hrun', hanswers', hq'⟩ := hf calls _ hq (x st).2 (log ++ calls)
  refine ⟨calls ++ calls', ?_, hanswers.append hanswers', hq'⟩
  rw [bind_run, bind_run, hrun, hrun', List.append_assoc]

theorem traced_call (members : List Pattern) :
    Traced r (r members) (logged r members) fun calls a => calls = [⟨members, a⟩] := by
  intro st log
  refine ⟨_, rfl, ?_, rfl⟩
  simp only [Answers, List.map_cons, List.map_nil, List.mapM_cons, List.mapM_nil]
  rfl

mutual

/-- A run of the resolver over a pattern settles it by the calls that were written down. -/
theorem settle_traced (p : Pattern) : Traced r (p.settle r) (p.settle (logged r)) (SettlesBy p) := by
  cases p with
  | ignore s => exact traced_pure .ignore
  | capture s n t p => exact traced_pure .capture
  | equal s e p => exact traced_pure .equal
  | record s c cs fs p =>
    rw [settle, settle]
    refine (settleFields_traced fs).bind fun calls fs' h => traced_pure ?_
    rw [List.append_nil]
    exact .record h
  | tuple s c cs fs p =>
    rw [settle, settle]
    refine (settleAll_traced fs).bind fun calls fs' h => traced_pure ?_
    rw [List.append_nil]
    exact .tuple h
  | group s ms =>
    rw [settle, settle]
    refine (settleAll_traced ms).bind fun calls ms' h =>
      (traced_call ms').bind fun call a ha => traced_pure ?_
    rw [List.append_nil, ha]
    exact .group h

theorem settleAll_traced (ps : List Pattern) :
    Traced r (settleAll r ps) (settleAll (logged r) ps) (SettlesAllBy ps) := by
  cases ps with
  | nil => exact traced_pure .nil
  | cons p ps =>
    rw [settleAll, settleAll]
    refine (settle_traced p).bind fun calls q h =>
      (settleAll_traced ps).bind fun calls' qs hs => traced_pure ?_
    rw [List.append_nil]
    exact .cons h hs

theorem settleFields_traced (fs : List FieldPattern) :
    Traced r (settleFields r fs) (settleFields (logged r) fs) (SettlesFieldsBy fs) := by
  cases fs with
  | nil => exact traced_pure .nil
  | cons f fs =>
    obtain ⟨n, ns, p⟩ := f
    rw [settleFields, settleFields]
    refine (settle_traced p).bind fun calls q h =>
      (settleFields_traced fs).bind fun calls' fs' hs => traced_pure ?_
    rw [List.append_nil]
    exact .cons h hs

end

end Runs

/-! ## What the calls are for -/

theorem span_withSpan (s : Span) (p : Pattern) : (p.withSpan s).span = s := by
  cases p <;> rfl

theorem isSettled_withSpan (s : Span) (p : Pattern) : (p.withSpan s).isSettled = p.isSettled := by
  cases p <;> simp only [withSpan, isSettled]

mutual

theorem SettlesBy.kept {p q : Pattern} {calls : List GroupCall} (h : SettlesBy p calls q) : Kept p q := by
  cases h with
  | ignore => exact .ignore
  | capture => exact .capture
  | equal => exact .equal
  | record h => exact .record h.kept
  | tuple h => exact .tuple h.kept
  | group _ => exact .group (span_withSpan _ _)

theorem SettlesAllBy.kept {ps qs : List Pattern} {calls : List GroupCall} (h : SettlesAllBy ps calls qs) :
    KeptAll ps qs := by
  cases h with
  | nil => exact .nil
  | cons h hs => exact .cons h.kept hs.kept

theorem SettlesFieldsBy.kept {fs fs' : List FieldPattern} {calls : List GroupCall}
    (h : SettlesFieldsBy fs calls fs') : KeptFields fs fs' := by
  cases h with
  | nil => exact .nil
  | cons h hs => exact .cons h.kept hs.kept

end

theorem Kept.span_eq {p q : Pattern} (h : Kept p q) : q.span = p.span := by
  cases h with
  | group h => exact h
  | ignore => rfl
  | capture => rfl
  | equal => rfl
  | record _ => rfl
  | tuple _ => rfl

theorem KeptAll.spans_eq {ps qs : List Pattern} (h : KeptAll ps qs) : qs.map span = ps.map span := by
  cases h with
  | nil => rfl
  | cons h hs => rw [List.map_cons, List.map_cons, h.span_eq, hs.spans_eq]

/-- A call is for a group: its members are those of the group, at their places in the source, and they are
settled. -/
structure GroupCall.Serves (group : List Pattern) (call : GroupCall) : Prop where
  spans_eq : call.members.map span = group.map span
  kept : KeptAll group call.members
  settled : allSettled call.members = true

/-- Asked about settled patterns, the resolver answers by a settled one. -/
def Settling {σ : Type} (r : List Pattern → StateM σ Pattern) : Prop :=
  ∀ ms st, allSettled ms = true → (r ms st).1.isSettled = true

/-- The calls of a resolver that answers settled questions by settled patterns. -/
def WellAnswered (calls : List GroupCall) : Prop :=
  ∀ call ∈ calls, allSettled call.members = true → call.answer.isSettled = true

theorem WellAnswered.left {calls calls' : List GroupCall} (h : WellAnswered (calls ++ calls')) :
    WellAnswered calls :=
  fun call hc => h call (List.mem_append_left calls' hc)

theorem WellAnswered.right {calls calls' : List GroupCall} (h : WellAnswered (calls ++ calls')) :
    WellAnswered calls' :=
  fun call hc => h call (List.mem_append_right calls hc)

theorem Answers.wellAnswered {σ : Type} {r : List Pattern → StateM σ Pattern} {st st' : σ}
    {calls : List GroupCall} (h : Answers r st calls st') (hr : Settling r) : WellAnswered calls := by
  induction calls generalizing st with
  | nil => exact fun _ hc => nomatch hc
  | cons call calls ih =>
    rw [Answers, List.map_cons, List.map_cons, List.mapM_cons, bind_run, bind_run, pure_run] at h
    obtain ⟨hanswers, hend⟩ := Prod.ext_iff.mp h
    obtain ⟨hfirst, hrest⟩ := List.cons.inj hanswers
    intro c hc hsettled
    rcases List.mem_cons.mp hc with rfl | hc
    · exact hfirst ▸ hr _ st hsettled
    · exact ih (Prod.ext hrest hend) c hc hsettled

mutual

theorem SettlesBy.settled {p q : Pattern} {calls : List GroupCall} (h : SettlesBy p calls q)
    (hc : WellAnswered calls) : q.isSettled = true := by
  cases h with
  | ignore => rfl
  | capture => rfl
  | equal => rfl
  | record h => exact h.settled hc
  | tuple h => exact h.settled hc
  | group h =>
    rw [isSettled_withSpan]
    exact hc _ (List.mem_append_right _ List.mem_cons_self) (h.settled hc.left)

theorem SettlesAllBy.settled {ps qs : List Pattern} {calls : List GroupCall} (h : SettlesAllBy ps calls qs)
    (hc : WellAnswered calls) : allSettled qs = true := by
  cases h with
  | nil => rfl
  | cons h hs => rw [allSettled, h.settled hc.left, hs.settled hc.right, Bool.and_self]

theorem SettlesFieldsBy.settled {fs fs' : List FieldPattern} {calls : List GroupCall}
    (h : SettlesFieldsBy fs calls fs') (hc : WellAnswered calls) : fieldsSettled fs' = true := by
  cases h with
  | nil => rfl
  | cons h hs => rw [fieldsSettled, h.settled hc.left, hs.settled hc.right, Bool.and_self]

end

mutual

/-- There is one call for each group, in the order of the groups. -/
theorem SettlesBy.serves {p q : Pattern} {calls : List GroupCall} (h : SettlesBy p calls q)
    (hc : WellAnswered calls) : List.Forall₂ GroupCall.Serves p.groups calls := by
  cases h with
  | ignore => exact .nil
  | capture => exact .nil
  | equal => exact .nil
  | record h => exact h.serves hc
  | tuple h => exact h.serves hc
  | group h =>
    exact List.rel_append (h.serves hc.left) (.cons ⟨h.kept.spans_eq, h.kept, h.settled hc.left⟩ .nil)

theorem SettlesAllBy.serves {ps qs : List Pattern} {calls : List GroupCall} (h : SettlesAllBy ps calls qs)
    (hc : WellAnswered calls) : List.Forall₂ GroupCall.Serves (groupsAll ps) calls := by
  cases h with
  | nil => exact .nil
  | cons h hs => exact List.rel_append (h.serves hc.left) (hs.serves hc.right)

theorem SettlesFieldsBy.serves {fs fs' : List FieldPattern} {calls : List GroupCall}
    (h : SettlesFieldsBy fs calls fs') (hc : WellAnswered calls) :
    List.Forall₂ GroupCall.Serves (groupsFields fs) calls := by
  cases h with
  | nil => exact .nil
  | cons h hs => exact List.rel_append (h.serves hc.left) (hs.serves hc.right)

end

mutual

/-- What is settled by no call was settled. -/
theorem SettlesBy.eq_of_nil {p q : Pattern} {calls : List GroupCall} (h : SettlesBy p calls q)
    (hc : calls = []) : q = p := by
  cases h with
  | ignore => rfl
  | capture => rfl
  | equal => rfl
  | record h => rw [h.eq_of_nil hc]
  | tuple h => rw [h.eq_of_nil hc]
  | group _ => exact absurd hc (List.append_ne_nil_of_right_ne_nil _ (List.cons_ne_nil _ _))

theorem SettlesAllBy.eq_of_nil {ps qs : List Pattern} {calls : List GroupCall} (h : SettlesAllBy ps calls qs)
    (hc : calls = []) : qs = ps := by
  cases h with
  | nil => rfl
  | cons h hs =>
    obtain ⟨hc, hcs⟩ := List.append_eq_nil_iff.mp hc
    rw [h.eq_of_nil hc, hs.eq_of_nil hcs]

theorem SettlesFieldsBy.eq_of_nil {fs fs' : List FieldPattern} {calls : List GroupCall}
    (h : SettlesFieldsBy fs calls fs') (hc : calls = []) : fs' = fs := by
  cases h with
  | nil => rfl
  | cons h hs =>
    obtain ⟨hc, hcs⟩ := List.append_eq_nil_iff.mp hc
    rw [h.eq_of_nil hc, hs.eq_of_nil hcs]

end

/-- A resolver is asked once for each group, for inner groups first and from left to right, about as many
patterns at the same places in the source as there are in the group, all of them settled before; its state
goes from one call to the next and nowhere else. If it answers settled questions by settled patterns, no
group is left. What is no group stays as it was, so a pattern without groups is not changed and nothing is
asked. -/
theorem settle_innermost_first {σ : Type} (r : List Pattern → StateM σ Pattern) (hr : Settling r)
    (p : Pattern) (st : σ) :
    ∃ calls, p.settle (logged r) (st, []) = ((p.settle r st).1, (p.settle r st).2, calls) ∧
      SettlesBy p calls (p.settle r st).1 ∧
      Answers r st calls (p.settle r st).2 ∧
      List.Forall₂ GroupCall.Serves p.groups calls ∧
      (p.settle r st).1.isSettled = true ∧
      Kept p (p.settle r st).1 ∧
      (p.groups = [] → calls = [] ∧ (p.settle r st).1 = p) := by
  obtain ⟨calls, hrun, hanswers, hsettles⟩ := settle_traced p st []
  have hserves := hsettles.serves (hanswers.wellAnswered hr)
  refine ⟨calls, hrun, hsettles, hanswers, hserves, hsettles.settled (hanswers.wellAnswered hr),
    hsettles.kept, ?_⟩
  intro hnone
  rw [hnone] at hserves
  cases hserves
  exact ⟨rfl, hsettles.eq_of_nil rfl⟩

/-- A resolver that makes a positional pattern of each group and numbers these in the span of the
constructor. One group is inside another one, under a named field, and an empty one is under a position. -/
theorem settle_innermost_first_numbered :
    let site (n : UInt32) : Span := ⟨n, n + 1⟩
    let number : List Pattern → StateM UInt32 Pattern := fun ms n =>
      (.tuple default "Group" (site n) ms none, n + 1)
    let x : Pattern := .capture (site 10) "x" none none
    let y : Pattern := .ignore (site 11)
    let inner : Pattern := .group (site 12) [y]
    let p : Pattern := .record default "Pair" default
      [⟨"first", default, .group (site 13) [x, inner]⟩,
        ⟨"second", default, .tuple (site 14) "Some" default [.group (site 15) []] none⟩] none
    let innerDone : Pattern := .tuple (site 12) "Group" (site 0) [y] none
    let q : Pattern := .record default "Pair" default
      [⟨"first", default, .tuple (site 13) "Group" (site 1) [x, innerDone] none⟩,
        ⟨"second", default, .tuple (site 14) "Some" default [.tuple (site 15) "Group" (site 2) [] none] none⟩] none
    Settling number ∧ p.groups = [[y], [x, inner], []] ∧ p.settle number 0 = (q, 3) ∧
      (∃ calls, p.settle (logged number) (0, []) = (q, 3, calls) ∧
        calls.map (·.members) = [[y], [x, innerDone], []] ∧
        List.Forall₂ GroupCall.Serves [[y], [x, inner], []] calls) ∧
      q.isSettled = true ∧ Kept p q := by
  intro site number x y inner p innerDone q
  have hnumber : Settling number := fun ms n h => h
  have hrun : p.settle number 0 = (q, 3) := rfl
  obtain ⟨calls, htaped, -, -, hserves, hsettled, hkept, -⟩ := settle_innermost_first number hnumber p 0
  rw [hrun] at htaped hsettled hkept
  have hlog : calls = (p.settle (logged number) (0, [])).2.2 := by rw [htaped]
  exact ⟨hnumber, rfl, hrun, ⟨calls, htaped, hlog ▸ rfl, hserves⟩, hsettled, hkept⟩

end Clausal.Pattern
