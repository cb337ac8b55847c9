import Clausal.Proofs.Reduction.Patterns
import Clausal.Proofs.Session.Scoping

/-!
# Tag tests dominate projections

A projection that names a constructor is reached only where its value was tested for that constructor:
the conditions of a clause stop at the first one that is not true, its captures are evaluated where all
of them are true, and no binding in between is one of its placeholders. So whatever values a compiled
definition is given, its evaluation never finds another constructor than it tested for, and no builtin
that stands alone. A placeholder may even lack its value, or be that of another matcher too: a lookup has
the same outcome in the test and behind it.
-/
namespace Clausal

/-- The error tells of a tree that was put together wrongly, not of the program. -/
def EvalError.IsInternal : EvalError → Prop
  | .tagMismatch _ _ => True
  | .unappliedBuiltin _ => True
  | _ => False

/-- The evaluation does not end in an internal error. -/
def Safe {α : Type} (x : EvalM α) : Prop :=
  ∀ e, x = throw e → ¬ e.IsInternal

/-- No definition ends in an internal error. -/
def SafeApply (apply : Apply) : Prop :=
  ∀ n args, Safe (apply n args)

variable {config : Config} {apply : Apply} {hidden : List String} {locals env : Locals}
  {subject : EvalM Value} {α β : Type}

theorem safe_pure (a : α) : Safe (pure a) :=
  avoids_pure a

theorem safe_throw {e : EvalError} (h : ¬ e.IsInternal) : Safe (throw e : EvalM α) :=
  avoids_throw h

theorem Safe.bind {x : EvalM α} {f : α → EvalM β} (hx : Safe x)
    (hf : ∀ a, x = pure a → Safe (f a)) : Safe (x >>= f) :=
  Avoids.bind hx hf

theorem Safe.map {x : EvalM α} (hx : Safe x) (g : α → β) : Safe (do return g (← x)) :=
  hx.bind fun a _ => safe_pure (g a)

/-- A test that goes on only where it is true. -/
theorem Safe.and {first rest : EvalM Bool} (hfirst : Safe first) (hrest : Safe rest) :
    Safe (do if ← first then rest else return false) := by
  refine hfirst.bind fun b _ => ?_
  cases b with
  | false => exact safe_pure false
  | true => exact hrest

theorem safe_asData (v : Value) : Safe (Tree.asData v) :=
  avoids_asData (fun _ => id) v

theorem safe_asBool (v : Value) : Safe (Tree.asBool v) :=
  avoids_asBool (fun _ => id) v

theorem safe_projected (h : Safe subject) (n : String) : Safe (projected subject n) := by
  refine h.bind fun v _ => (safe_asData v).bind fun ⟨found, fields⟩ _ => ?_
  cases hlookup : fields.lookup n with
  | some w => simpa [hlookup] using safe_pure w
  | none => simpa [hlookup] using safe_throw (α := Value) (e := .noSuchField v n) id

theorem safe_symbol (happly : SafeApply apply) (n : String) : Safe ((Tree.symbol n).eval apply locals) := by
  rw [Tree.eval]
  cases locals.lookup n with
  | some v => exact safe_pure v
  | none => exact happly n []

theorem safe_expected (happly : SafeApply apply) (e : Expected) : Safe (e.value apply env) := by
  cases e with
  | literal l => exact safe_pure _
  | name n => exact safe_symbol happly n

/-! ## Patterns -/

namespace Pattern

/-- The test of a constructor pattern, with the tests of its fields behind it. -/
theorem safe_test (h : Safe subject) (c : String) {rest : EvalM Bool} (hrest : Safe rest) : Safe (do
    let (tag, _) ← Tree.asData (← subject)
    if tag = c then rest else return false) := by
  refine h.bind fun v _ => (safe_asData v).bind fun ⟨tag, fields⟩ _ => ?_
  dsimp only
  split
  · exact hrest
  · exact safe_pure false

mutual

theorem accepts_safe (happly : SafeApply apply) : ∀ (p : Pattern) {subject : EvalM Value},
    Safe subject → Safe (p.accepts config apply env subject)
  | .ignore _, _, _ => safe_pure true
  | .capture _ _ _ _, _, _ => safe_pure true
  | .equal _ e _, _, h => h.bind fun _ _ => (safe_expected happly e).map _
  | .record _ c _ fields _, _, h => safe_test h c (fieldsAccept_safe happly fields h)
  | .tuple _ c _ fields _, _, h => safe_test h c (positionsAccept_safe happly 0 fields h)
  | .group _ _, _, _ => safe_pure true

theorem fieldsAccept_safe (happly : SafeApply apply) : ∀ (fs : List FieldPattern)
    {subject : EvalM Value}, Safe subject → Safe (fieldsAccept config apply env fs subject)
  | [], _, _ => safe_pure true
  | ⟨n, _, p⟩ :: fs, _, h =>
    (accepts_safe happly p (safe_projected h n)).and (fieldsAccept_safe happly fs h)

theorem positionsAccept_safe (happly : SafeApply apply) : ∀ (position : Nat) (ps : List Pattern)
    {subject : EvalM Value}, Safe subject → Safe (positionsAccept config apply env position ps subject)
  | _, [], _, _ => safe_pure true
  | position, p :: ps, _, h =>
    (accepts_safe happly p (safe_projected h _)).and (positionsAccept_safe happly (position + 1) ps h)

end

mutual

theorem captured_safe : ∀ (p : Pattern) {subject : EvalM Value}, Safe subject →
    Safe (p.captured config subject)
  | .ignore _, _, _ => safe_pure []
  | .capture _ n _ _, _, h => h.map fun v => [(n, v)]
  | .equal _ _ _, _, _ => safe_pure []
  | .record _ _ _ fields _, _, h => fieldsCaptured_safe fields h
  | .tuple _ _ _ fields _, _, h => positionsCaptured_safe 0 fields h
  | .group _ _, _, _ => safe_pure []

theorem fieldsCaptured_safe : ∀ (fs : List FieldPattern) {subject : EvalM Value}, Safe subject →
    Safe (fieldsCaptured config fs subject)
  | [], _, _ => safe_pure []
  | ⟨n, _, p⟩ :: fs, _, h =>
    (captured_safe p (safe_projected h n)).bind fun _ _ => (fieldsCaptured_safe fs h).map _

theorem positionsCaptured_safe : ∀ (position : Nat) (ps : List Pattern) {subject : EvalM Value},
    Safe subject → Safe (positionsCaptured config position ps subject)
  | _, [], _, _ => safe_pure []
  | position, p :: ps, _, h =>
    (captured_safe p (safe_projected h _)).bind fun _ _ =>
      (positionsCaptured_safe (position + 1) ps h).map _

end

/-- The conditions of a clause decide safely whether it is taken, and where it is, its captures are
evaluated safely. -/
theorem exists_safe_accept (happly : SafeApply apply) (locals : Locals) : ∀ {ps : List Pattern}
    {params : List Argument}, AllBoundAt config ps params → Open hidden (stepsAll ps) →
    (∀ a ∈ params, a.name ∈ hidden) → ∃ accept : EvalM Bool, Safe accept ∧
      Tree.evalAnd apply locals ((stepsAll ps).filterMap Step.test?) =
        (do return .ofBool (← accept)) ∧
      (accept = pure true → ∀ news : Locals, (∀ x ∈ news, x.1 ∉ hidden) →
        Safe (Tree.enter apply ((stepsAll ps).filterMap Step.assignment?) (news ++ locals)))
  | [], [], _, _, _ => ⟨pure true, safe_pure true, rfl, fun _ _ _ => safe_pure _⟩
  | p :: ps, a :: params, ⟨hp, hps⟩, hopen, hparams => by
    rw [stepsAll, open_append] at hopen
    obtain ⟨ha, hparams⟩ := List.forall_mem_cons.mp hparams
    obtain ⟨rest, hsafe, hrest, henter⟩ := exists_safe_accept happly locals hps hopen.2 hparams
    have hagree : Agree hidden locals locals := fun _ _ => rfl
    have hshows : Shows apply hidden locals (.ofArgument a) _ := shows_ofArgument ha
    have hsubject : Safe ((Tree.symbol a.name).eval apply locals) := safe_symbol happly a.name
    refine ⟨do if ← p.accepts config apply locals _ then rest else return false,
      (accepts_safe happly p hsubject).and hsafe, ?_, fun htrue news hnews => ?_⟩
    · rw [stepsAll, List.filterMap_append,
        evalAnd_append_of_eq (accepts_run hagree hp hopen.1 hshows), bind_assoc]
      refine bind_congr fun b => ?_
      cases b with
      | false => rfl
      | true => exact hrest
    · -- the first pattern accepts, so its projections find what they were tested for
      obtain ⟨hfirst, hlast⟩ := and_eq_true htrue
      have hcaptured := captured_run hp hopen.1 (hshows.under hnews) hfirst
      rw [stepsAll, List.filterMap_append, Tree.enter_append, hcaptured.enter_eq, bind_assoc]
      refine (captured_safe p hsubject).bind fun inner hinner => ?_
      rw [pure_bind, ← List.append_assoc]
      refine henter hlast _ fun x hx => ?_
      rcases List.mem_append.mp hx with hx | hx
      · exact hcaptured.not_hidden inner hinner x hx
      · exact hnews x hx

end Pattern

/-! ## Expressions and clauses -/

/-- A call is safe if what is called is: then it is no builtin. -/
theorem safe_call (happly : SafeApply apply) {t : Tree} {args : List Tree}
    (ht : Safe (t.eval apply locals)) (hargs : Safe (Tree.evalAll apply locals args)) :
    Safe ((Tree.call t args).eval apply locals) := by
  by_cases hsymbol : ∃ n, t = .symbol n
  · obtain ⟨n, rfl⟩ := hsymbol
    rw [Tree.eval]
    cases locals.lookup n with
    | some v => exact safe_throw id
    | none => exact hargs.bind fun vs _ => happly n vs
  · have hbuiltin : ∀ b, t ≠ .builtin b := by
      rintro b rfl
      exact ht (.unappliedBuiltin b) (by rw [Tree.eval]) trivial
    rw [Tree.eval_call_of_ne (fun n he => hsymbol ⟨n, he⟩) hbuiltin]
    exact ht.bind fun v _ => safe_throw id

mutual

theorem Expr.lowered_safe (happly : SafeApply apply) : ∀ {e : Expr} {locals : Locals},
    e.Bound config → e.placeholders ⊆ hidden → (∀ n ∈ e.names, n ∉ hidden) →
    Safe (e.lowered.eval apply locals)
  | .literal _ _, _, _, _, _ => safe_pure _
  | .name _ n, _, _, _, _ => safe_symbol happly n
  | .call _ callee args, _, ⟨hcallee, hargs⟩, hp, hn => by
    obtain ⟨hp, hp'⟩ := List.append_subset.mp hp
    obtain ⟨hn, hn'⟩ := List.forall_mem_append.mp hn
    rw [Expr.lowered]
    exact safe_call happly (Expr.lowered_safe happly hcallee hp hn)
      (Expr.loweredAll_safe happly hargs hp' hn')
  | .cond _ c t e, _, ⟨hc, ht, he⟩, hp, hn => by
    obtain ⟨hp, hpe⟩ := List.append_subset.mp hp
    obtain ⟨hpc, hpt⟩ := List.append_subset.mp hp
    obtain ⟨hn, hne⟩ := List.forall_mem_append.mp hn
    obtain ⟨hnc, hnt⟩ := List.forall_mem_append.mp hn
    rw [Expr.lowered, Tree.eval]
    refine (Expr.lowered_safe happly hc hpc hnc).bind fun v _ => (safe_asBool v).bind fun b _ => ?_
    cases b with
    | false => exact Expr.lowered_safe happly he hpe hne
    | true => exact Expr.lowered_safe happly ht hpt hnt
  | .letIn _ n _ value body, _, ⟨hvalue, hbody⟩, hp, hn => by
    obtain ⟨hp, hp'⟩ := List.append_subset.mp hp
    obtain ⟨hn, hn'⟩ := List.forall_mem_append.mp (List.forall_mem_cons.mp hn).2
    rw [Expr.lowered, Tree.eval]
    exact (Expr.lowered_safe happly hvalue hp hn).bind fun v _ =>
      Expr.lowered_safe happly hbody hp' hn'
  | .access _ value f _, _, hvalue, hp, hn => by
    rw [Expr.Bound] at hvalue
    rw [Expr.placeholders] at hp
    rw [Expr.names] at hn
    rw [Expr.lowered, Tree.eval]
    exact safe_projected (Expr.lowered_safe happly hvalue hp hn) f
  | .matching _ scrutinees ⟨name, _, params, _, clauses⟩, _, ⟨hscrutinees, hclauses⟩, hp, hn => by
    obtain ⟨hp, hm⟩ := List.append_subset.mp hp
    obtain ⟨hparams, hp'⟩ := List.append_subset.mp hm
    obtain ⟨hn, hn'⟩ := List.forall_mem_append.mp hn
    rw [Expr.lowered, Tree.eval_letAll]
    refine (Expr.enter_lowered_safe happly hscrutinees hp hn).bind fun inner _ => ?_
    exact Matcher.chain_safe happly hclauses (fun a ha => hparams (List.mem_map_of_mem ha)) hp' hn'

theorem Expr.loweredAll_safe (happly : SafeApply apply) : ∀ {es : List Expr} {locals : Locals},
    Expr.BoundAll config es → Expr.placeholdersAll es ⊆ hidden → (∀ n ∈ Expr.namesAll es, n ∉ hidden) →
    Safe (Tree.evalAll apply locals (Expr.loweredAll es))
  | [], _, _, _, _ => safe_pure []
  | e :: es, _, ⟨he, hes⟩, hp, hn => by
    obtain ⟨hp, hp'⟩ := List.append_subset.mp hp
    obtain ⟨hn, hn'⟩ := List.forall_mem_append.mp hn
    rw [Expr.loweredAll, Tree.evalAll]
    exact (Expr.lowered_safe happly he hp hn).bind fun v _ =>
      (Expr.loweredAll_safe happly hes hp' hn').map _

theorem Expr.enter_lowered_safe (happly : SafeApply apply) : ∀ {es : List Expr} {names : List String}
    {locals : Locals}, Expr.BoundAll config es → Expr.placeholdersAll es ⊆ hidden →
    (∀ n ∈ Expr.namesAll es, n ∉ hidden) →
    Safe (Tree.enter apply (names.zip (Expr.loweredAll es)) locals)
  | [], names, _, _, _, _ => by
    rw [Expr.loweredAll, List.zip_nil_right]
    exact safe_pure _
  | _ :: _, [], _, _, _, _ => safe_pure _
  | e :: es, name :: names, _, ⟨he, hes⟩, hp, hn => by
    obtain ⟨hp, hp'⟩ := List.append_subset.mp hp
    obtain ⟨hn, hn'⟩ := List.forall_mem_append.mp hn
    rw [Expr.loweredAll, List.zip_cons_cons, Tree.enter]
    exact (Expr.lowered_safe happly he hp hn).bind fun v _ =>
      Expr.enter_lowered_safe happly hes hp' hn'

theorem Matcher.chain_safe (happly : SafeApply apply) : ∀ {cs : List Clause} {params : List Argument}
    {name : String} {locals : Locals}, Matcher.ClausesBound config params cs →
    (∀ a ∈ params, a.name ∈ hidden) → Matcher.clausePlaceholders cs ⊆ hidden →
    (∀ n ∈ Matcher.clauseNames cs, n ∉ hidden) →
    Safe ((ClauseState.chain (.fault name) (Matcher.clauseStates cs)).eval apply locals)
  | [], _, _, _, _, _, _, _ => safe_throw id
  | ⟨_, patterns, body⟩ :: cs, params, name, locals, ⟨hpatterns, hbody, hcs⟩, hparams, hp, hn => by
    obtain ⟨hp, hp'⟩ := List.append_subset.mp hp
    obtain ⟨hn, hn'⟩ := List.forall_mem_append.mp hn
    obtain ⟨hsteps, hn⟩ := List.forall_mem_append.mp hn
    have hopen : Open hidden (Pattern.stepsAll patterns) := fun s hs n hname =>
      hsteps n (List.mem_filterMap.mpr ⟨s, hs, hname⟩)
    obtain ⟨accept, hsafe, haccept, henter⟩ :=
      Pattern.exists_safe_accept happly locals hpatterns hopen hparams
    rw [Matcher.clauseStates, ClauseState.eval_chain_cons, ClauseState.toTree, ClauseState.fill,
      List.nil_append, List.nil_append, haccept, bind_assoc]
    refine hsafe.bind fun b hb => ?_
    rw [pure_bind, asBool_ofBool, pure_bind]
    cases b with
    | false => exact Matcher.chain_safe happly hcs hparams hp' hn'
    | true =>
      rw [if_pos rfl, Tree.eval_letAll]
      exact (henter hb [] fun _ hx => by cases hx).bind fun inner _ =>
        Expr.lowered_safe happly hbody hp hn

end

theorem Matcher.lowered_safe {m : Matcher} (hm : m.Bound config)
    (hnames : ∀ p ∈ m.placeholders, p ∉ m.names) (happly : SafeApply apply) :
    Safe (m.lowered.eval apply locals) := by
  have hhidden : ∀ n ∈ m.names, n ∉ m.placeholders := fun n hn hp => hnames n hp hn
  generalize hm' : m.placeholders = hidden at hhidden
  obtain ⟨name, _, params, _, clauses⟩ := m
  have hsub : params.map (·.name) ++ Matcher.clausePlaceholders clauses ⊆ hidden :=
    hm' ▸ List.Subset.refl _
  obtain ⟨hparams, hp⟩ := List.append_subset.mp hsub
  exact Matcher.chain_safe happly hm (fun a ha => hparams (List.mem_map_of_mem ha)) hp hhidden

/-! ## Interpreters -/

theorem Interpreter.apply_safe {i : Interpreter}
    (h : ∀ d ∈ i.definitions, ∀ apply locals, SafeApply apply → Safe (d.body.eval apply locals))
    (depth : Nat) : SafeApply (i.apply depth) := by
  induction depth with
  | zero =>
    intro name args e he
    cases he
  | succ depth ih =>
    intro name args
    rw [Interpreter.apply]
    cases hd : i.definition? name with
    | none => exact safe_throw id
    | some d =>
      dsimp only
      split
      · exact h d (List.mem_of_find?_eq_some hd) _ _ ih
      · exact safe_throw id

/-- Definitions that sessions compiled, from matchers none of whose placeholders is one of their names,
come to no projection with another constructor than the value was tested for, and to no builtin that
is not applied: whatever the arguments are, and however deep definitions are nested. -/
theorem Interpreter.apply_ne_internal {i : Interpreter}
    (h : ∀ d ∈ i.definitions, ∃ (m : Matcher) (s s' : Session),
      (∀ p ∈ m.placeholders, p ∉ m.names) ∧ Session.compile m s = .ok d s')
    (depth : Nat) (name : String) (args : List Value) :
    (∀ expected found, i.apply depth name args ≠ throw (.tagMismatch expected found)) ∧
      ∀ b, i.apply depth name args ≠ throw (.unappliedBuiltin b) := by
  have hsafe : SafeApply (i.apply depth) := by
    refine Interpreter.apply_safe (fun d hd apply locals happly => ?_) depth
    obtain ⟨m, s, s', hnames, hcompile⟩ := h d hd
    obtain ⟨bound, ty, checked, c, hbound, hchecked, htree, -, -⟩ :=
      Session.exists_of_compile hcompile
    rw [Session.body_eq_lowered hbound hchecked htree]
    obtain ⟨hsub, hplaceholders⟩ := Matcher.bind_names hbound
    refine Matcher.lowered_safe (Matcher.bind_bound hbound) (fun p hp hn => ?_) happly
    exact hnames p (hplaceholders ▸ hp) (hsub hn)
  exact ⟨fun expected found he => hsafe name args _ he trivial,
    fun b he => hsafe name args _ he trivial⟩

/-- A matcher over pairs whose first field is a pair, applied to one whose inner pair lacks its fields. -/
theorem apply_ne_internal_nested_pair :
    let inner : Pattern :=
      .tuple default "Pair" default [.capture default "x" none none, .ignore default] none
    let clause : Clause :=
      ⟨default, [.tuple default "Pair" default [inner, .ignore default] none], .name default "x"⟩
    let m := (Session.freshMatcher {} "f" default 1 [clause]).1
    let s := (Session.freshMatcher {} "f" default 1 [clause]).2
    let args := [Value.data "Pair" [("_0", .data "Pair" [])]]
    ∃ d s', (∀ p ∈ m.placeholders, p ∉ m.names) ∧ Session.compile m s = .ok d s' ∧
      ∀ depth, (∀ expected found,
          Interpreter.apply ⟨[d]⟩ depth "f" args ≠ throw (.tagMismatch expected found)) ∧
        ∀ b, Interpreter.apply ⟨[d]⟩ depth "f" args ≠ throw (.unappliedBuiltin b) := by
  intro inner clause m s args
  have hm : ∀ p ∈ m.placeholders, p ∉ m.names := by decide
  have hok : (match Session.compile m s with
    | .ok _ _ => true
    | .error _ _ => false) = true := by decide +kernel
  cases hrun : Session.compile m s with
  | error v s' =>
    rw [hrun] at hok
    cases hok
  | ok d s' =>
    refine ⟨d, s', hm, rfl, fun depth => Interpreter.apply_ne_internal (fun d' hd => ?_) depth "f" args⟩
    rw [List.mem_singleton.mp hd]
    exact ⟨m, s, s', hm, hrun⟩

end Clausal
