import Clausal.Proofs.Eval.Stack
import Clausal.Proofs.Eval.Trees

/-!
# Trees without faults

A fault node is the only place where an evaluation finds that no clause took a value. Nothing else raises
this error: a test, a projection and a call that go wrong have errors of their own. So it is enough to
count the fault nodes of the definitions to know that no request ends in it.
-/
namespace Clausal

/-- No clause of a matcher took the value. -/
def EvalError.IsFault : EvalError → Prop
  | .nonExhaustiveMatch _ => True
  | _ => False

namespace Tree

variable {apply : Apply}

theorem faultless_project (v : Value) (field : String) (tag : Option String) :
    Avoids EvalError.IsFault (project v field tag) := by
  refine (avoids_asData (fun _ => id) v).bind fun ⟨found, fields⟩ _ => ?_
  cases tag with
  | none =>
    dsimp only
    split
    case h_1 w _ => exact avoids_pure w
    case h_2 => exact avoids_throw id
  | some expected =>
    dsimp only
    split
    case isTrue => exact avoids_throw id
    case isFalse =>
      split
      case h_1 w _ => exact avoids_pure w
      case h_2 => exact avoids_throw id

mutual

theorem eval_faultless (happly : ∀ n args, Avoids EvalError.IsFault (apply n args)) :
    ∀ (t : Tree) (locals : Locals), t.faultCount = 0 → Avoids EvalError.IsFault (t.eval apply locals)
  | .literal l, locals, _ => avoids_pure _
  | .symbol n, locals, _ => by
    rw [eval]
    cases locals.lookup n with
    | none => exact happly n []
    | some v => exact avoids_pure v
  | .builtin b, locals, _ => avoids_throw id
  | .call callee args, locals, h => by
    obtain ⟨hcallee, hargs⟩ := Nat.add_eq_zero_iff.mp h
    have hvalue := eval_faultless happly callee locals hcallee
    have hvalues := evalAll_faultless happly args locals hargs
    cases callee with
    | symbol n =>
      rw [eval]
      cases locals.lookup n with
      | none => exact hvalues.bind fun vs _ => happly n vs
      | some v => exact avoids_throw id
    | builtin b =>
      cases b with
      | equal => exact hvalues.bind fun vs _ => avoids_pure _
      | and => exact evalAnd_faultless happly args locals hargs
    | _ =>
      rw [eval_call_of_ne (fun n => Tree.noConfusion) (fun b => Tree.noConfusion)]
      exact hvalue.bind fun v _ => avoids_throw id
  | .cond c t e, locals, h => by
    obtain ⟨h, he⟩ := Nat.add_eq_zero_iff.mp h
    obtain ⟨hc, ht⟩ := Nat.add_eq_zero_iff.mp h
    rw [eval]
    refine (eval_faultless happly c locals hc).bind fun v _ =>
      (avoids_asBool (fun _ => id) v).bind fun b _ => ?_
    cases b with
    | false => exact eval_faultless happly e locals he
    | true => exact eval_faultless happly t locals ht
  | .letIn n value body, locals, h => by
    obtain ⟨hvalue, hbody⟩ := Nat.add_eq_zero_iff.mp h
    rw [eval]
    exact (eval_faultless happly value locals hvalue).bind fun v _ =>
      eval_faultless happly body _ hbody
  | .access value f tag, locals, h => by
    rw [eval]
    exact (eval_faultless happly value locals h).bind fun v _ => faultless_project v f tag
  | .isTag value tag, locals, h => by
    rw [eval]
    exact (eval_faultless happly value locals h).bind fun v _ =>
      (avoids_asData (fun _ => id) v).bind fun _ _ => avoids_pure _

theorem evalAll_faultless (happly : ∀ n args, Avoids EvalError.IsFault (apply n args)) :
    ∀ (ts : List Tree) (locals : Locals), faultCountAll ts = 0 →
      Avoids EvalError.IsFault (evalAll apply locals ts)
  | [], locals, _ => avoids_pure _
  | t :: ts, locals, h => by
    obtain ⟨ht, hts⟩ := Nat.add_eq_zero_iff.mp h
    rw [evalAll]
    exact (eval_faultless happly t locals ht).bind fun v _ =>
      (evalAll_faultless happly ts locals hts).bind fun vs _ => avoids_pure _

theorem evalAnd_faultless (happly : ∀ n args, Avoids EvalError.IsFault (apply n args)) :
    ∀ (ts : List Tree) (locals : Locals), faultCountAll ts = 0 →
      Avoids EvalError.IsFault (evalAnd apply locals ts)
  | [], locals, _ => avoids_pure _
  | t :: ts, locals, h => by
    obtain ⟨ht, hts⟩ := Nat.add_eq_zero_iff.mp h
    rw [evalAnd]
    refine (eval_faultless happly t locals ht).bind fun v _ =>
      (avoids_asBool (fun _ => id) v).bind fun b _ => ?_
    cases b with
    | false => exact avoids_pure _
    | true => exact evalAnd_faultless happly ts locals hts

end

end Tree

namespace Interpreter

variable {i : Interpreter}

/-- No definition that a name stands for has a fault node. -/
def FaultFree (i : Interpreter) : Prop :=
  ∀ name d, i.definition? name = some d → d.body.faultCount = 0

/-- A tree to evaluate has no fault node. Nothing is asked of the arguments of a definition. -/
def Request.FaultFree : Request → Prop
  | .apply _ _ _ => True
  | .eval _ t => t.faultCount = 0

theorem apply_faultless (h : i.FaultFree) (depth : Nat) (name : String) (args : List Value) :
    Avoids EvalError.IsFault (i.apply depth name args) := by
  induction depth generalizing name args with
  | zero =>
    intro e he
    cases he
  | succ depth ih =>
    rw [apply]
    cases hd : i.definition? name with
    | none => exact avoids_throw id
    | some d =>
      dsimp only
      split
      · exact Tree.eval_faultless ih d.body _ (h name d hd)
      · exact avoids_throw id

/-- What is asked of definitions without faults is answered without one, whatever stands on the stack. -/
theorem answer_faultless (h : i.FaultFree) {q : Request} (hq : q.FaultFree) (stack : Locals) :
    ∃ x : EvalM Value, Avoids EvalError.IsFault x ∧ (q.answer i).on stack = x.run.map (·, stack) := by
  cases q with
  | apply depth name args =>
    exact ⟨_, apply_faultless h depth name args, i.balanced_applyOn depth name args stack⟩
  | eval depth t =>
    exact ⟨_, Tree.eval_faultless (apply_faultless h depth) t stack hq,
      Tree.balanced_evalOn (i.balanced_applyOn depth) t stack⟩

theorem answer_ne_nonExhaustiveMatch (h : i.FaultFree) {q : Request} (hq : q.FaultFree)
    (stack stack' : Locals) (m : String) :
    (q.answer i).on stack ≠ some (.error (.nonExhaustiveMatch m), stack') := by
  obtain ⟨x, hx, hanswer⟩ := answer_faultless h hq stack
  rw [hanswer]
  intro he
  obtain ⟨outcome, hrun, hpair⟩ := Option.map_eq_some_iff.mp he
  cases hpair
  exact hx _ hrun trivial

end Interpreter
end Clausal
