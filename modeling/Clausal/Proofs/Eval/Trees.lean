import Clausal.Eval.Interpreter
import Clausal.Reduction.Reducer
import Mathlib.Data.List.Nodup

/-!
# Evaluating the trees that the reducer builds

How conditions, bindings and chains of clauses are evaluated, whatever trees they are made of.
-/
namespace Clausal

variable {apply : Apply} {locals : Locals}

theorem evalM_cases {α : Type} (x : EvalM α) :
    x = ExceptT.mk none ∨ (∃ e, x = throw e) ∨ ∃ a, x = pure a := by
  match x with
  | none => exact .inl rfl
  | some (.error e) => exact .inr (.inl ⟨e, rfl⟩)
  | some (.ok a) => exact .inr (.inr ⟨a, rfl⟩)

theorem exists_of_bind_eq_pure {α β : Type} {x : EvalM α} {f : α → EvalM β} {b : β}
    (h : x >>= f = pure b) : ∃ a, x = pure a ∧ f a = pure b := by
  rcases evalM_cases x with rfl | ⟨e, rfl⟩ | ⟨a, rfl⟩
  · cases h
  · cases h
  · exact ⟨a, rfl, h⟩

/-- The evaluation does not end in an error of this kind. -/
def Avoids {α : Type} (bad : EvalError → Prop) (x : EvalM α) : Prop :=
  ∀ e, x = throw e → ¬ bad e

section

variable {α β : Type} {bad : EvalError → Prop}

theorem avoids_pure (a : α) : Avoids bad (pure a) := by
  intro e h
  cases h

theorem avoids_throw {e : EvalError} (h : ¬ bad e) : Avoids bad (throw e : EvalM α) := by
  intro e' he
  cases he
  exact h

theorem Avoids.bind {x : EvalM α} {f : α → EvalM β} (hx : Avoids bad x)
    (hf : ∀ a, x = pure a → Avoids bad (f a)) : Avoids bad (x >>= f) := by
  rcases evalM_cases x with rfl | ⟨e, rfl⟩ | ⟨a, rfl⟩
  · intro e h
    cases h
  · exact avoids_throw (hx e rfl)
  · exact hf a rfl

theorem avoids_asBool (h : ∀ v, ¬ bad (.notBool v)) (v : Value) : Avoids bad (Tree.asBool v) := by
  match v with
  | .literal (.bool b) => exact avoids_pure b
  | .literal .unit => exact avoids_throw (h _)
  | .literal (.int _) => exact avoids_throw (h _)
  | .literal (.float _) => exact avoids_throw (h _)
  | .literal (.char _) => exact avoids_throw (h _)
  | .literal (.text _) => exact avoids_throw (h _)
  | .data _ _ => exact avoids_throw (h _)

theorem avoids_asData (h : ∀ v, ¬ bad (.notData v)) (v : Value) : Avoids bad (Tree.asData v) := by
  cases v with
  | literal l => exact avoids_throw (h _)
  | data tag fields => exact avoids_pure _

end

/-- A test that gives a truth value decides as it is. -/
theorem asBool_ofBool (b : Bool) : Tree.asBool (.ofBool b) = pure b := rfl

namespace Tree

/-- The locals under bindings, each evaluated under those before it. -/
def enter (apply : Apply) : List (String × Tree) → Locals → EvalM Locals
  | [], locals => return locals
  | (n, t) :: bindings, locals => do
    let v ← t.eval apply locals
    enter apply bindings ((n, v) :: locals)

theorem enter_append (l₁ l₂ : List (String × Tree)) (locals : Locals) :
    enter apply (l₁ ++ l₂) locals = enter apply l₁ locals >>= enter apply l₂ := by
  induction l₁ generalizing locals with
  | nil => rw [List.nil_append, enter, pure_bind]
  | cons b l₁ ih => simp only [List.cons_append, enter, ih, bind_assoc]

theorem eval_letAll (l : List (String × Tree)) (body : Tree) (locals : Locals) :
    (letAll l body).eval apply locals = enter apply l locals >>= fun inner => body.eval apply inner := by
  induction l generalizing locals with
  | nil => rw [enter, pure_bind, letAll, List.foldr_nil]
  | cons b l ih =>
    rw [letAll, List.foldr_cons, eval, enter, bind_assoc]
    exact bind_congr fun v => ih _

/-- What is called is a name, or evaluated and then refused. -/
theorem eval_call_of_ne {t : Tree} {args : List Tree} (hsymbol : ∀ n, t ≠ .symbol n)
    (hbuiltin : ∀ b, t ≠ .builtin b) :
    (call t args).eval apply locals =
      (do throw (.notAFunction (← t.eval apply locals))) := by
  cases t with
  | symbol n => exact absurd rfl (hsymbol n)
  | builtin b => exact absurd rfl (hbuiltin b)
  | _ => rfl

theorem evalAnd_append (l₁ l₂ : List Tree) :
    evalAnd apply locals (l₁ ++ l₂) = (do
      if ← asBool (← evalAnd apply locals l₁) then evalAnd apply locals l₂
      else return .ofBool false) := by
  induction l₁ with
  | nil =>
    rw [List.nil_append, evalAnd, pure_bind, asBool_ofBool, pure_bind]
    rfl
  | cons t l₁ ih =>
    rw [List.cons_append, evalAnd, evalAnd, bind_assoc]
    refine bind_congr fun v => ?_
    rw [bind_assoc]
    refine bind_congr fun b => ?_
    cases b with
    | false => rfl
    | true => exact ih

end Tree

/-- A clause is taken where all its conditions are true, and else the rest of the chain. -/
theorem ClauseState.eval_chain_cons (fallback : Tree) (c : ClauseState) (cs : List ClauseState) :
    (chain fallback (c :: cs)).eval apply locals = (do
      if ← Tree.asBool (← Tree.evalAnd apply locals c.conditions) then c.toTree.eval apply locals
      else (chain fallback cs).eval apply locals) := by
  rw [chain]
  match hc : c.conditions with
  | [] =>
    rw [Tree.evalAnd, pure_bind, asBool_ofBool, pure_bind]
    rfl
  | [only] =>
    rw [condition, hc, Tree.evalAnd, bind_assoc, Tree.evalAnd, Tree.eval.eq_def]
    refine bind_congr fun v => ?_
    rw [bind_assoc]
    refine bind_congr fun b => ?_
    cases b <;> rfl
  | t :: t' :: ts =>
    rw [condition, hc]
    rfl

end Clausal
