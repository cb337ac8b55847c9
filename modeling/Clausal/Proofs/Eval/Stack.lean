import Clausal.Eval.Stack
import Clausal.Proofs.Eval.Trees

/-!
# Evaluation on a stack

On a stack, a tree comes to what it comes to with the stack as its locals, and the stack is left as it
was, also behind an error that is raised while bindings are pushed or the stack is set aside. So a
definition does not depend on where it is applied, and requests to one interpreter do not depend on one
another.
-/
namespace Clausal

namespace StackM

variable {α β : Type} {m : StackM α} {f : Locals → EvalM α}

/-- The outcome is the given one for the locals on the stack, and the stack is left as it was. -/
def Balanced (m : StackM α) (f : Locals → EvalM α) : Prop :=
  ∀ stack, m.on stack = (f stack).run.map (·, stack)

theorem balanced_pure (a : α) : Balanced (pure a) fun _ => pure a :=
  fun _ => rfl

theorem balanced_throw (e : EvalError) : Balanced (throw e : StackM α) fun _ => throw e :=
  fun _ => rfl

theorem balanced_ofEval (x : EvalM α) : Balanced (ofEval x) fun _ => x :=
  fun _ => rfl

/-- A local is read off the stack as it stands. -/
theorem balanced_lookup (n : String) {k : Option Value → StackM α} {g : Option Value → Locals → EvalM α}
    (hk : ∀ o, Balanced (k o) (g o)) :
    Balanced (lookup n >>= k) fun stack => g (stack.lookup n) stack :=
  fun stack => hk (stack.lookup n) stack

theorem on_bind (m : StackM α) (k : α → StackM β) (stack : Locals) :
    (m >>= k).on stack = m.on stack >>= fun
      | (.ok a, stack') => (k a).on stack'
      | (.error e, stack') => some (.error e, stack') := by
  change (m.on stack >>= fun p => _) = _
  refine bind_congr fun (outcome, stack') => ?_
  cases outcome <;> rfl

theorem on_attempt (m : StackM α) (stack : Locals) :
    (attempt m).on stack = (m.on stack).map fun (outcome, stack') => (.ok outcome, stack') := by
  change (m.on stack >>= fun p => _) = _
  cases m.on stack <;> rfl

theorem Balanced.bind {k : α → StackM β} {g : α → Locals → EvalM β} (hm : Balanced m f)
    (hk : ∀ a, Balanced (k a) (g a)) :
    Balanced (m >>= k) fun stack => f stack >>= fun a => g a stack := by
  intro stack
  change _ = (f stack >>= fun a => g a stack).run.map (·, stack)
  rw [on_bind, hm]
  rcases evalM_cases (f stack) with hf | ⟨e, hf⟩ | ⟨a, hf⟩
  · rw [hf]
    rfl
  · rw [hf]
    rfl
  · rw [hf]
    exact hk a stack

/-- What is pushed for a part is popped behind it, also if the part raises an error. -/
theorem Balanced.under (hm : Balanced m f) (n : String) (v : Value) :
    Balanced (do
      push n v
      let result ← attempt m
      pop
      MonadExcept.ofExcept result) fun stack => f ((n, v) :: stack) := by
  intro stack
  change (attempt m >>= fun result => pop >>= fun _ => MonadExcept.ofExcept result).on ((n, v) :: stack) =
    (f ((n, v) :: stack)).run.map (·, stack)
  rw [on_bind, on_attempt, hm]
  rcases evalM_cases (f ((n, v) :: stack)) with hf | ⟨e, hf⟩ | ⟨a, hf⟩ <;> rw [hf] <;> rfl

/-- What is done on a stack of its own does not depend on the one set aside, which is put back behind
it, also behind an error. -/
theorem Balanced.aside (hm : Balanced m f) (own : Locals) :
    Balanced (do
      let saved ← take
      set own
      let result ← attempt m
      set saved
      MonadExcept.ofExcept result) fun _ => f own := by
  intro stack
  change (attempt m >>= fun result => set stack >>= fun _ => MonadExcept.ofExcept result).on own =
    (f own).run.map (·, stack)
  rw [on_bind, on_attempt, hm]
  rcases evalM_cases (f own) with hf | ⟨e, hf⟩ | ⟨a, hf⟩ <;> rw [hf] <;> rfl

end StackM

namespace Tree

open StackM

variable {apply : StackApply} {apply' : Apply}

mutual

/-- Trees are balanced if the definitions that they apply are. -/
theorem balanced_evalOn (h : ∀ name args, Balanced (apply name args) fun _ => apply' name args) :
    ∀ t : Tree, Balanced (t.evalOn apply) fun stack => t.eval apply' stack
  | .literal l => by
    simp only [evalOn, eval]
    exact balanced_pure _
  | .symbol n => by
    simp only [evalOn, eval]
    refine balanced_lookup n (g := fun o _ => match o with
      | some v => pure v
      | none => apply' n []) fun o => ?_
    cases o with
    | none => exact h n []
    | some v => exact balanced_pure v
  | .builtin b => by
    simp only [evalOn, eval]
    exact balanced_throw _
  | .call callee args => by
    have hcallee := balanced_evalOn h callee
    have hargs := balanced_evalAllOn h args
    cases callee with
    | symbol n =>
      simp only [evalOn, eval]
      refine balanced_lookup n (g := fun o stack => match o with
        | some _ => throw (.notCallable n)
        | none => do apply' n (← evalAll apply' stack args)) fun o => ?_
      cases o with
      | none => exact hargs.bind fun vs => h n vs
      | some v => exact balanced_throw _
    | builtin b =>
      cases b with
      | and =>
        simp only [evalOn, eval]
        exact balanced_evalAndOn h args
      | equal =>
        simp only [evalOn, eval]
        exact hargs.bind fun vs => balanced_pure _
    | _ =>
      simp only [evalOn, eval] at hcallee ⊢
      exact hcallee.bind fun v => balanced_throw _
  | .cond c t e => by
    simp only [evalOn, eval]
    refine (balanced_evalOn h c).bind fun v => (balanced_ofEval _).bind fun b => ?_
    cases b with
    | true => exact balanced_evalOn h t
    | false => exact balanced_evalOn h e
  | .letIn n value body => by
    simp only [evalOn, eval]
    exact (balanced_evalOn h value).bind fun v => (balanced_evalOn h body).under n v
  | .access value f tag => by
    simp only [evalOn, eval]
    exact (balanced_evalOn h value).bind fun v => balanced_ofEval _
  | .isTag value tag => by
    simp only [evalOn, eval]
    exact (balanced_evalOn h value).bind fun v => (balanced_ofEval _).bind fun p => balanced_pure _
  | .fault m => by
    simp only [evalOn, eval]
    exact balanced_throw _

theorem balanced_evalAllOn (h : ∀ name args, Balanced (apply name args) fun _ => apply' name args) :
    ∀ ts : List Tree, Balanced (evalAllOn apply ts) fun stack => evalAll apply' stack ts
  | [] => by
    simp only [evalAllOn, evalAll]
    exact balanced_pure _
  | t :: ts => by
    simp only [evalAllOn, evalAll]
    exact (balanced_evalOn h t).bind fun v => (balanced_evalAllOn h ts).bind fun vs => balanced_pure _

theorem balanced_evalAndOn (h : ∀ name args, Balanced (apply name args) fun _ => apply' name args) :
    ∀ ts : List Tree, Balanced (evalAndOn apply ts) fun stack => evalAnd apply' stack ts
  | [] => by
    simp only [evalAndOn, evalAnd]
    exact balanced_pure _
  | t :: ts => by
    simp only [evalAndOn, evalAnd]
    refine (balanced_evalOn h t).bind fun v => (balanced_ofEval _).bind fun b => ?_
    cases b with
    | true => exact balanced_evalAndOn h ts
    | false => exact balanced_pure _

end

end Tree

namespace Interpreter

open StackM

variable (i : Interpreter)

/-- A definition is balanced, and comes to the same over every stack. -/
theorem balanced_applyOn (depth : Nat) (name : String) (args : List Value) :
    Balanced (i.applyOn depth name args) fun _ => i.apply depth name args := by
  induction depth generalizing name args with
  | zero =>
    rw [applyOn, apply]
    exact balanced_ofEval _
  | succ depth ih =>
    simp only [applyOn, apply]
    cases i.definition? name with
    | none => exact balanced_throw _
    | some d =>
      by_cases hlength : d.params.length = args.length
      · simp only [hlength, ↓reduceIte]
        exact (Tree.balanced_evalOn ih d.body).aside (parameters d args)
      · simp only [hlength, ↓reduceIte]
        exact balanced_throw _

theorem exists_balanced_answer (q : Request) : ∃ f, Balanced (q.answer i) f := by
  cases q with
  | apply depth name args => exact ⟨_, i.balanced_applyOn depth name args⟩
  | eval depth t => exact ⟨_, Tree.balanced_evalOn (i.balanced_applyOn depth) t⟩

/-- Each request finds the stack that the first one found. -/
theorem answers_eq (qs : List Request) (stack : Locals) :
    i.answers qs stack =
      (qs.mapM fun q : Request => ((q.answer i).on stack).map Prod.fst).map (·, stack) := by
  induction qs with
  | nil => rfl
  | cons q qs ih =>
    obtain ⟨f, hq⟩ := i.exists_balanced_answer q
    rw [answers, List.mapM_cons, hq]
    cases (f stack).run with
    | none => rfl
    | some outcome =>
      change (i.answers qs stack >>= fun p => _) = _
      rw [ih]
      cases qs.mapM fun q : Request => ((q.answer i).on stack).map Prod.fst <;> rfl

/-- Evaluation on the stack has the outcome of evaluation with the stack as locals and leaves it as it
was, behind a value and behind an error; a definition has one outcome over every stack; and requests
made one after another are each answered as by an interpreter that has not been asked anything. -/
theorem leaves_stack :
    (∀ (depth : Nat) (t : Tree) (stack : Locals), (t.evalOn (i.applyOn depth)).on stack =
      (t.eval (i.apply depth) stack).run.map (·, stack)) ∧
    (∀ (depth : Nat) (name : String) (args : List Value) (stack : Locals),
      (i.applyOn depth name args).on stack = (i.apply depth name args).run.map (·, stack)) ∧
    ∀ qs : List Request,
      i.answers qs [] = (qs.mapM fun q : Request => ((q.answer i).on []).map Prod.fst).map (·, []) :=
  ⟨fun depth t => Tree.balanced_evalOn (i.balanced_applyOn depth) t, i.balanced_applyOn,
    fun qs => i.answers_eq qs []⟩

/-- A binding made before the error is gone behind it, and the one before that is not. -/
example : ((Tree.letIn "x" (.literal .unit) (.fault "pair")).evalOn (applyOn {} 0)).on
    [("y", .literal .unit)] =
      some (.error (.nonExhaustiveMatch "pair"), [("y", .literal .unit)]) := rfl

end Interpreter
end Clausal
