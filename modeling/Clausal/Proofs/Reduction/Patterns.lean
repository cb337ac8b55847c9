import Clausal.Proofs.Eval.Meaning
import Clausal.Proofs.Eval.Trees
import Clausal.Proofs.Matcher.Names
import Clausal.Proofs.Reduction.Lowered

/-!
# The conditions and assignments of a pattern

The conditions that a bound pattern adds to its clause are true exactly if the pattern accepts its
value, and where they are, its assignments give what the pattern captures. Conditions are evaluated
outside the captures of the clause, assignments each under those before it.
-/
namespace Clausal

variable {apply : Apply} {config : Config} {hidden : List String} {locals env news : Locals}
  {place : Place} {subject : EvalM Value} {n c : String} {fields : List (String × Value)}

/-- The locals differ in hidden names only. -/
def Agree (hidden : List String) (locals env : Locals) : Prop :=
  ∀ n, n ∉ hidden → locals.lookup n = env.lookup n

theorem Agree.append (h : Agree hidden locals env) (news : Locals) :
    Agree hidden (news ++ locals) (news ++ env) := by
  intro n hn
  rw [List.lookup_append, List.lookup_append, h n hn]

theorem Agree.hide_cons (h : Agree hidden locals env) (hn : n ∈ hidden) (v : Value) :
    Agree hidden ((n, v) :: locals) env := by
  intro m hm
  have hne : m ≠ n := fun he => hm (he ▸ hn)
  rw [List.lookup_cons, beq_false_of_ne hne, h m hm]

theorem Agree.hide (h : Agree hidden locals env) (hnews : ∀ x ∈ news, x.1 ∈ hidden) :
    Agree hidden (news ++ locals) env := by
  induction news with
  | nil => exact h
  | cons x news ih =>
    obtain ⟨hx, hnews⟩ := List.forall_mem_cons.mp hnews
    exact (ih hnews).hide_cons hx x.2

theorem Agree.valueOf (h : Agree hidden locals env) (hn : n ∉ hidden) :
    (Tree.symbol n).eval apply locals = env.valueOf apply n := by
  rw [Tree.eval, h n hn]
  rfl

/-- The tree of a place gives the value, also under bindings of names that are not hidden. -/
def Shows (apply : Apply) (hidden : List String) (locals : Locals) (place : Place)
    (subject : EvalM Value) : Prop :=
  ∀ news : Locals, (∀ x ∈ news, x.1 ∉ hidden) → place.toTree.eval apply (news ++ locals) = subject

theorem Shows.eval_eq (h : Shows apply hidden locals place subject) :
    place.toTree.eval apply locals = subject :=
  h [] (fun _ hx => absurd hx List.not_mem_nil)

theorem Shows.under (h : Shows apply hidden locals place subject)
    (hnews : ∀ x ∈ news, x.1 ∉ hidden) : Shows apply hidden (news ++ locals) place subject := by
  intro inner hinner
  rw [← List.append_assoc]
  apply h
  intro x hx
  rcases List.mem_append.mp hx with hx | hx
  · exact hinner x hx
  · exact hnews x hx

theorem Place.toTree_tagged (place : Place) (c : String) : (place.tagged c).toTree = place.toTree := by
  cases place <;> rfl

theorem Place.tag?_tagged (place : Place) (c : String) : (place.tagged c).tag? = some c := by
  cases place <;> rfl

theorem Shows.tagged (h : Shows apply hidden locals place subject) (c : String) :
    Shows apply hidden locals (place.tagged c) subject := by
  intro news hnews
  rw [Place.toTree_tagged]
  exact h news hnews

/-- A field of data that was tested for its constructor is found without a fault. -/
theorem Shows.field (h : Shows apply hidden locals place (pure (.data c fields)))
    (hc : place.tag? = some c) (n : String) :
    Shows apply hidden locals (place.access n) (projected (pure (.data c fields)) n) := by
  intro news hnews
  have htree : (place.access n).toTree = .access place.toTree n (some c) := by
    rw [← hc]
    rfl
  rw [htree, Tree.eval, h news hnews, projected, pure_bind, pure_bind, Tree.project, Tree.project]
  simp [Tree.asData]

/-- A placeholder that is hidden is looked up with the same outcome under all other bindings. -/
theorem shows_ofArgument {a : Argument} (ha : a.name ∈ hidden) :
    Shows apply hidden locals (.ofArgument a) ((Tree.symbol a.name).eval apply locals) := by
  intro news hnews
  have hnone : news.lookup a.name = none := by
    rw [List.lookup_eq_none_iff]
    intro x hx
    have hne : x.1 ≠ a.name := fun he => hnews x hx (he ▸ ha)
    simp [hne.symm]
  rw [Place.ofArgument, Place.toTree, Tree.eval, Tree.eval, List.lookup_append, hnone, Option.none_or]

theorem Shows.argument {a : Argument} {v : Value} (ha : a.name ∈ hidden)
    (h : locals.lookup a.name = some v) :
    Shows apply hidden locals (.ofArgument a) (pure v) := by
  have hvalue : (Tree.symbol a.name).eval apply locals = pure v := by rw [Tree.eval, h]
  rw [← hvalue]
  exact shows_ofArgument ha

/-- No step binds or looks up a hidden name. -/
def Open (hidden : List String) (steps : List Step) : Prop :=
  ∀ s ∈ steps, ∀ n, s.name? = some n → n ∉ hidden

theorem open_append {l₁ l₂ : List Step} : Open hidden (l₁ ++ l₂) ↔ Open hidden l₁ ∧ Open hidden l₂ :=
  List.forall_mem_append

theorem open_cons {s : Step} {l : List Step} :
    Open hidden (s :: l) ↔ (∀ n, s.name? = some n → n ∉ hidden) ∧ Open hidden l :=
  List.forall_mem_cons

/-! ## Conditions -/

theorem evalAnd_cons_of_eq {t : Tree} {ts : List Tree} {test : EvalM Bool}
    (h : t.eval apply locals = do return .ofBool (← test)) :
    Tree.evalAnd apply locals (t :: ts) = (do
      if ← test then Tree.evalAnd apply locals ts else return .ofBool false) := by
  rw [Tree.evalAnd, h, bind_assoc]
  refine bind_congr fun b => ?_
  rw [pure_bind, asBool_ofBool, pure_bind]

theorem evalAnd_append_of_eq {l₁ l₂ : List Tree} {first : EvalM Bool}
    (h : Tree.evalAnd apply locals l₁ = do return .ofBool (← first)) :
    Tree.evalAnd apply locals (l₁ ++ l₂) = (do
      if ← first then Tree.evalAnd apply locals l₂ else return .ofBool false) := by
  rw [Tree.evalAnd_append, h, bind_assoc]
  refine bind_congr fun b => ?_
  rw [pure_bind, asBool_ofBool, pure_bind]

theorem Shows.eval_equalTest (h : Shows apply hidden locals place subject)
    (hagree : Agree hidden locals env) {e : Expected}
    (he : ∀ n, (Step.equal e (some place)).name? = some n → n ∉ hidden) :
    (place.equalTest e).eval apply locals =
      (do return .ofBool (← (do
        let found ← subject
        return found.equal (← e.value apply env)))) := by
  have hvalue : e.toTree.eval apply locals = e.value apply env := by
    cases e with
    | literal l => rfl
    | name n => exact hagree.valueOf (he n rfl)
  have hevalAll : Tree.evalAll apply locals [place.toTree, e.toTree] = (do
      let v ← subject
      let w ← e.value apply env
      return [v, w]) := by
    simp only [Tree.evalAll, h.eval_eq, hvalue, bind_assoc, pure_bind]
  rw [Place.equalTest, Tree.eval, hevalAll]
  simp only [bind_assoc, pure_bind, Value.allEqual, Bool.and_true]

theorem Shows.eval_tagTest (h : Shows apply hidden locals place subject) (c : String) :
    (place.tagTest c).eval apply locals =
      (do return .ofBool (← (do
        let (tag, _) ← Tree.asData (← subject)
        return tag == c))) := by
  rw [Place.tagTest, Tree.eval, h.eval_eq]
  simp only [bind_assoc, pure_bind]

/-- A test for a constructor, and conditions that matter only where it is true. -/
theorem Shows.evalAnd_tagTest (hs : Shows apply hidden locals place subject) {ts : List Tree}
    {rest : EvalM Bool} (hrest : ∀ fields, subject = pure (.data c fields) →
      Tree.evalAnd apply locals ts = do return .ofBool (← rest)) :
    Tree.evalAnd apply locals (place.tagTest c :: ts) =
      (do return .ofBool (← (do
        let (tag, _) ← Tree.asData (← subject)
        if tag = c then rest else return false))) := by
  rw [evalAnd_cons_of_eq (hs.eval_tagTest c)]
  -- without a value, or without data, both sides stop at the test
  rcases evalM_cases subject with rfl | ⟨e, rfl⟩ | ⟨v, rfl⟩
  · rfl
  · rfl
  · cases v with
    | literal l => rfl
    | data tag fields =>
      by_cases h : tag = c
      · subst h
        simp only [pure_bind, Tree.asData, beq_self_eq_true, if_true]
        exact hrest fields rfl
      · simp [Tree.asData, h]

namespace Pattern

mutual

theorem accepts_run (hagree : Agree hidden locals env) : ∀ {p : Pattern} {place : Place}
    {subject : EvalM Value}, p.BoundAt config place → Open hidden p.steps →
    Shows apply hidden locals place subject →
    Tree.evalAnd apply locals (p.steps.filterMap Step.test?) =
      (do return .ofBool (← p.accepts config apply env subject))
  | .ignore _, place, subject, _, _, _ => rfl
  | .capture _ _ _ _, place, subject, _, _, _ => rfl
  | .equal _ e _, place, subject, hb, hopen, hs => by
    cases hb
    rw [steps, open_cons] at hopen
    have htest := hs.eval_equalTest hagree hopen.1
    rw [steps, accepts]
    refine (evalAnd_cons_of_eq htest).trans (bind_congr fun b => ?_)
    cases b <;> rfl
  | .record _ c _ fields _, place, subject, ⟨hp, hb⟩, hopen, hs => by
    cases hp
    rw [steps, open_cons] at hopen
    rw [steps, accepts]
    -- the conditions of the fields matter behind the true test only, where the value is data
    refine (hs.tagged c).evalAnd_tagTest fun found hfound => ?_
    subst hfound
    exact fieldsAccept_run hagree hb hopen.2 (hs.tagged c) (place.tag?_tagged c)
  | .tuple _ c _ fields _, place, subject, ⟨hp, hb⟩, hopen, hs => by
    cases hp
    rw [steps, open_cons] at hopen
    rw [steps, accepts]
    refine (hs.tagged c).evalAnd_tagTest fun found hfound => ?_
    subst hfound
    exact positionsAccept_run hagree hb hopen.2 (hs.tagged c) (place.tag?_tagged c)

theorem fieldsAccept_run (hagree : Agree hidden locals env) : ∀ {fs : List FieldPattern}
    {parent : Place} {c : String} {fields : List (String × Value)},
    FieldsBoundAt config parent fs → Open hidden (fieldSteps fs) →
    Shows apply hidden locals parent (pure (.data c fields)) → parent.tag? = some c →
    Tree.evalAnd apply locals ((fieldSteps fs).filterMap Step.test?) =
      (do return .ofBool (← fieldsAccept config apply env fs (pure (.data c fields))))
  | [], parent, _, _, _, _, _, _ => rfl
  | ⟨n, _, p⟩ :: fs, parent, c, fields, ⟨hp, hfs⟩, hopen, hs, hc => by
    rw [fieldSteps, open_append] at hopen
    rw [fieldSteps, List.filterMap_append, fieldsAccept]
    rw [evalAnd_append_of_eq (accepts_run hagree hp hopen.1 (hs.field hc n)), bind_assoc]
    refine bind_congr fun b => ?_
    cases b with
    | false => rfl
    | true => exact fieldsAccept_run hagree hfs hopen.2 hs hc

theorem positionsAccept_run (hagree : Agree hidden locals env) : ∀ {ps : List Pattern}
    {parent : Place} {position : Nat} {c : String} {fields : List (String × Value)},
    PositionsBoundAt config parent position ps →
    Open hidden (stepsAll ps) → Shows apply hidden locals parent (pure (.data c fields)) →
    parent.tag? = some c →
    Tree.evalAnd apply locals ((stepsAll ps).filterMap Step.test?) =
      (do return .ofBool (← positionsAccept config apply env position ps (pure (.data c fields))))
  | [], parent, position, _, _, _, _, _, _ => rfl
  | p :: ps, parent, position, c, fields, ⟨hp, hps⟩, hopen, hs, hc => by
    rw [stepsAll, open_append] at hopen
    rw [stepsAll, List.filterMap_append, positionsAccept]
    rw [evalAnd_append_of_eq (accepts_run hagree hp hopen.1 (hs.field hc _)), bind_assoc]
    refine bind_congr fun b => ?_
    cases b with
    | false => rfl
    | true => exact positionsAccept_run hagree hps hopen.2 hs hc

end

end Pattern

/-! ## Assignments -/

theorem test_eq_true {rest : EvalM Bool} (h : (do
      let (tag, _) ← Tree.asData (← subject)
      if tag = c then rest else return false) = pure true) :
    (∃ fields, subject = pure (.data c fields)) ∧ rest = pure true := by
  obtain ⟨v, rfl, h⟩ := exists_of_bind_eq_pure h
  cases v with
  | literal l => cases h
  | data tag fields =>
    by_cases htag : tag = c
    · subst htag
      simp only [pure_bind, Tree.asData, if_true] at h
      exact ⟨⟨fields, rfl⟩, h⟩
    · simp only [pure_bind, Tree.asData, if_neg htag] at h
      cases h

theorem and_eq_true {first rest : EvalM Bool}
    (h : (do if ← first then rest else return false) = pure true) :
    first = pure true ∧ rest = pure true := by
  obtain ⟨b, rfl, h⟩ := exists_of_bind_eq_pure h
  cases b with
  | false => cases h
  | true => exact ⟨rfl, h⟩

/-- The bindings give what is captured, and hide no hidden name. -/
structure Enters (apply : Apply) (hidden : List String) (locals : Locals)
    (bindings : List (String × Tree)) (captured : EvalM Locals) : Prop where
  enter_eq : Tree.enter apply bindings locals = do return (← captured) ++ locals
  not_hidden : ∀ news, captured = pure news → ∀ x ∈ news, x.1 ∉ hidden

theorem Enters.nil : Enters apply hidden locals [] (pure []) where
  enter_eq := rfl
  not_hidden news h x hx := by
    cases h
    cases hx

theorem Enters.append {l₁ l₂ : List (String × Tree)} {first second : EvalM Locals}
    (h₁ : Enters apply hidden locals l₁ first)
    (h₂ : ∀ news : Locals, (∀ x ∈ news, x.1 ∉ hidden) →
      Enters apply hidden (news ++ locals) l₂ second) :
    Enters apply hidden locals (l₁ ++ l₂) (do
      let news ← first
      return (← second) ++ news) := by
  have henter : Tree.enter apply (l₁ ++ l₂) locals =
      (do return (← first) ++ locals) >>= Tree.enter apply l₂ := by
    rw [Tree.enter_append, h₁.enter_eq]
  rcases evalM_cases first with rfl | ⟨e, rfl⟩ | ⟨news, rfl⟩
  · exact ⟨henter, fun _ h => by cases h⟩
  · exact ⟨henter, fun _ h => by cases h⟩
  · -- the second row is evaluated under what the first one captured
    have h := h₂ news (h₁.not_hidden news rfl)
    constructor
    · rw [henter, pure_bind, pure_bind, pure_bind, h.enter_eq, bind_assoc]
      refine bind_congr fun inner => ?_
      rw [pure_bind, List.append_assoc]
    · intro all hall x hx
      rw [pure_bind] at hall
      obtain ⟨inner, hinner, hall⟩ := exists_of_bind_eq_pure hall
      cases hall
      rcases List.mem_append.mp hx with hx | hx
      · exact h.not_hidden inner hinner x hx
      · exact h₁.not_hidden news rfl x hx

theorem Shows.enters (hs : Shows apply hidden locals place subject) (hn : n ∉ hidden) :
    Enters apply hidden locals [(n, place.toTree)] (do return [(n, ← subject)]) where
  enter_eq := by
    rw [Tree.enter, hs.eval_eq, bind_assoc]
    rfl
  not_hidden news h x hx := by
    obtain ⟨v, -, h⟩ := exists_of_bind_eq_pure h
    cases h
    rw [List.mem_singleton] at hx
    rw [hx]
    exact hn

namespace Pattern

mutual

theorem captured_run : ∀ {p : Pattern} {place : Place} {subject : EvalM Value} {locals : Locals},
    p.BoundAt config place → Open hidden p.steps → Shows apply hidden locals place subject →
    p.accepts config apply env subject = pure true →
    Enters apply hidden locals (p.steps.filterMap Step.assignment?) (p.captured config subject)
  | .ignore _, place, subject, locals, _, _, _, _ => .nil
  | .capture _ n _ _, place, subject, locals, hb, hopen, hs, _ => by
    cases hb
    rw [steps, open_cons] at hopen
    exact hs.enters (hopen.1 n rfl)
  | .equal _ _ _, place, subject, locals, hb, _, _, _ => by
    cases hb
    exact .nil
  | .record _ c _ fields _, place, subject, locals, ⟨hp, hb⟩, hopen, hs, ha => by
    cases hp
    rw [steps, open_cons] at hopen
    rw [accepts] at ha
    obtain ⟨⟨found, rfl⟩, hfields⟩ := test_eq_true ha
    exact fieldsCaptured_run hb hopen.2 (hs.tagged c) (place.tag?_tagged c) hfields
  | .tuple _ c _ fields _, place, subject, locals, ⟨hp, hb⟩, hopen, hs, ha => by
    cases hp
    rw [steps, open_cons] at hopen
    rw [accepts] at ha
    obtain ⟨⟨found, rfl⟩, hfields⟩ := test_eq_true ha
    exact positionsCaptured_run hb hopen.2 (hs.tagged c) (place.tag?_tagged c) hfields

theorem fieldsCaptured_run : ∀ {fs : List FieldPattern} {parent : Place} {c : String}
    {fields : List (String × Value)} {locals : Locals}, FieldsBoundAt config parent fs →
    Open hidden (fieldSteps fs) → Shows apply hidden locals parent (pure (.data c fields)) →
    parent.tag? = some c → fieldsAccept config apply env fs (pure (.data c fields)) = pure true →
    Enters apply hidden locals ((fieldSteps fs).filterMap Step.assignment?)
      (fieldsCaptured config fs (pure (.data c fields)))
  | [], parent, c, fields, locals, _, _, _, _, _ => .nil
  | ⟨n, _, p⟩ :: fs, parent, c, fields, locals, ⟨hp, hfs⟩, hopen, hs, hc, ha => by
    rw [fieldSteps, open_append] at hopen
    rw [fieldsAccept] at ha
    obtain ⟨hap, hafs⟩ := and_eq_true ha
    rw [fieldSteps, List.filterMap_append, fieldsCaptured]
    exact (captured_run hp hopen.1 (hs.field hc n) hap).append fun news hnews =>
      fieldsCaptured_run hfs hopen.2 (hs.under hnews) hc hafs

theorem positionsCaptured_run : ∀ {ps : List Pattern} {parent : Place} {position : Nat} {c : String}
    {fields : List (String × Value)} {locals : Locals},
    PositionsBoundAt config parent position ps → Open hidden (stepsAll ps) →
    Shows apply hidden locals parent (pure (.data c fields)) → parent.tag? = some c →
    positionsAccept config apply env position ps (pure (.data c fields)) = pure true →
    Enters apply hidden locals ((stepsAll ps).filterMap Step.assignment?)
      (positionsCaptured config position ps (pure (.data c fields)))
  | [], parent, position, c, fields, locals, _, _, _, _, _ => .nil
  | p :: ps, parent, position, c, fields, locals, ⟨hp, hps⟩, hopen, hs, hc, ha => by
    rw [stepsAll, open_append] at hopen
    rw [positionsAccept] at ha
    obtain ⟨hap, haps⟩ := and_eq_true ha
    rw [stepsAll, List.filterMap_append, positionsCaptured]
    exact (captured_run hp hopen.1 (hs.field hc _) hap).append fun news hnews =>
      positionsCaptured_run hps hopen.2 (hs.under hnews) hc haps

end

end Pattern

/-! ## Clauses -/

/-- The placeholders have the arguments as their values. -/
abbrev ShowsAll (apply : Apply) (hidden : List String) (locals : Locals) :
    List Argument → List Value → Prop :=
  List.Forall₂ fun a v => Shows apply hidden locals (.ofArgument a) (pure v)

namespace Pattern

theorem allAccept_run (hagree : Agree hidden locals env) : ∀ {ps : List Pattern}
    {params : List Argument} {args : List Value}, AllBoundAt config ps params →
    Open hidden (stepsAll ps) → ShowsAll apply hidden locals params args →
    Tree.evalAnd apply locals ((stepsAll ps).filterMap Step.test?) =
      (do return .ofBool (← allAccept config apply env ps args))
  | [], [], _, _, _, _ => rfl
  | p :: ps, a :: params, v :: args, ⟨hp, hps⟩, hopen, .cons ha hparams => by
    rw [stepsAll, open_append] at hopen
    rw [stepsAll, List.filterMap_append, allAccept,
      evalAnd_append_of_eq (accepts_run hagree hp hopen.1 ha), bind_assoc]
    refine bind_congr fun b => ?_
    cases b with
    | false => rfl
    | true => exact allAccept_run hagree hps hopen.2 hparams

theorem allCaptured_run : ∀ {ps : List Pattern} {params : List Argument} {args : List Value}
    {locals : Locals}, AllBoundAt config ps params → Open hidden (stepsAll ps) →
    ShowsAll apply hidden locals params args → allAccept config apply env ps args = pure true →
    Enters apply hidden locals ((stepsAll ps).filterMap Step.assignment?)
      (allCaptured config ps args)
  | [], [], _, locals, _, _, _, _ => .nil
  | p :: ps, a :: params, v :: args, locals, ⟨hp, hps⟩, hopen, .cons ha hparams, haccept => by
    rw [stepsAll, open_append] at hopen
    rw [allAccept] at haccept
    obtain ⟨hap, haps⟩ := and_eq_true haccept
    rw [stepsAll, List.filterMap_append, allCaptured]
    refine (captured_run hp hopen.1 ha hap).append fun news hnews => ?_
    exact allCaptured_run hps hopen.2 (hparams.imp fun _ _ h => h.under hnews) haps

end Pattern
end Clausal
