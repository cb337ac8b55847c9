import Clausal.Eval.Interpreter
import Clausal.Session

/-!
# Runs

What is known of the parts of a run that succeeded, for each of the monads of the compiler; and what
can be said of a run from its parts, whether it succeeds or breaks a contract.
-/
namespace Clausal

variable {ε σ α β : Type} {b : β}

theorem exists_of_bind_eq_ok {x : Except ε α} {f : α → Except ε β} (h : (x >>= f) = .ok b) :
    ∃ a, x = .ok a ∧ f a = .ok b := by
  cases x with
  | error e => cases h
  | ok a => exact ⟨a, rfl, h⟩

/-- There is a result. -/
def Succeeds (x : Except ε α) : Prop :=
  ∃ a, x = .ok a

theorem succeeds_pure (a : α) : Succeeds (pure a : Except ε α) :=
  ⟨a, rfl⟩

theorem not_succeeds_throw (e : ε) : ¬ Succeeds (throw e : Except ε α) := by
  rintro ⟨a, h⟩
  cases h

/-- Where the first result makes no difference to whether there is one of the rest. -/
theorem succeeds_then {x : Except ε α} {f : α → Except ε β} {p : Prop}
    (hf : ∀ a, Succeeds (f a) ↔ p) : Succeeds (x >>= f) ↔ Succeeds x ∧ p := by
  constructor
  · rintro ⟨b, h⟩
    obtain ⟨a, hx, hb⟩ := exists_of_bind_eq_ok h
    exact ⟨⟨a, hx⟩, (hf a).mp ⟨b, hb⟩⟩
  · rintro ⟨⟨a, rfl⟩, hp⟩
    exact (hf a).mpr hp

theorem succeeds_map {x : Except ε α} {g : α → β} : Succeeds (do return g (← x)) ↔ Succeeds x :=
  (succeeds_then fun a => iff_true_intro (succeeds_pure (g a))).trans (and_iff_left trivial)

theorem exists_of_run_bind_eq_ok {x : EStateM ε σ α} {f : α → EStateM ε σ β} {s s'' : σ}
    (h : (x >>= f) s = .ok b s'') : ∃ a s', x s = .ok a s' ∧ f a s' = .ok b s'' := by
  change EStateM.bind x f s = _ at h
  rw [EStateM.bind] at h
  cases hx : x s with
  | error e s' =>
    rw [hx] at h
    cases h
  | ok a s' =>
    rw [hx] at h
    exact ⟨a, s', rfl, h⟩

theorem run_bind_of_eq_ok {x : EStateM ε σ α} {f : α → EStateM ε σ β} {s s' : σ} {a : α}
    (h : x s = .ok a s') : (x >>= f) s = f a s' := by
  change EStateM.bind x f s = _
  rw [EStateM.bind, h]

theorem run_bind_of_eq_error {x : EStateM ε σ α} {f : α → EStateM ε σ β} {s s' : σ} {e : ε}
    (h : x s = .error e s') : (x >>= f) s = .error e s' := by
  change EStateM.bind x f s = _
  rw [EStateM.bind, h]

theorem run_bind_congr {x y : EStateM ε σ α} {f : α → EStateM ε σ β} {s : σ} (h : x s = y s) :
    (x >>= f) s = (y >>= f) s := by
  change EStateM.bind x f s = EStateM.bind y f s
  rw [EStateM.bind, EStateM.bind, h]

theorem exists_of_check_bind_eq_ok {x : CheckM α} {f : α → CheckM β} {decls : Declarations}
    {c c'' : Checker} (h : (x >>= f) decls c = .ok b c'') :
    ∃ a c', x decls c = .ok a c' ∧ f a decls c' = .ok b c'' :=
  exists_of_run_bind_eq_ok (x := x decls) (f := fun a => f a decls) h

theorem run_check_bind_of_eq_ok {x : CheckM α} {f : α → CheckM β} {decls : Declarations} {a : α}
    {c c' : Checker} (h : x decls c = .ok a c') : (x >>= f) decls c = f a decls c' :=
  run_bind_of_eq_ok (x := x decls) (f := fun a => f a decls) h

/-! ## Both outcomes of a run -/

/-- The run from this state ends with such a result and state, or breaks a contract and leaves such a
state. -/
def Ends (x : EStateM ε σ α) (s : σ) (P : α → σ → Prop) (B : σ → Prop) : Prop :=
  match x s with
  | .ok a s' => P a s'
  | .error _ s' => B s'

/-- The state that a run leaves, also where it breaks a contract. -/
def leftBy : EStateM.Result ε σ α → σ
  | .ok _ s => s
  | .error _ s => s

variable {x : EStateM ε σ α} {f : α → EStateM ε σ β} {s s' : σ} {P P' : α → σ → Prop}
  {Q : β → σ → Prop} {B B' : σ → Prop}

theorem Ends.of_ok {a : α} (h : Ends x s P B) (hx : x s = .ok a s') : P a s' := by
  rw [Ends, hx] at h
  exact h

theorem Ends.mono (h : Ends x s P B) (hp : ∀ a s', P a s' → P' a s')
    (hb : ∀ s', B s' → B' s') : Ends x s P' B' := by
  rw [Ends] at h ⊢
  cases hx : x s with
  | ok a s' =>
    rw [hx] at h
    exact hp a s' h
  | error v s' =>
    rw [hx] at h
    exact hb s' h

theorem Ends.bind (hx : Ends x s P B)
    (hf : ∀ a s', P a s' → Ends (f a) s' Q B) : Ends (x >>= f) s Q B := by
  rw [Ends] at hx
  change match EStateM.bind x f s with
    | .ok b s' => Q b s'
    | .error _ s' => B s'
  rw [EStateM.bind]
  cases hrun : x s with
  | ok a s' =>
    rw [hrun] at hx
    exact hf a s' hx
  | error v s' =>
    rw [hrun] at hx
    exact hx

theorem Ends.bind_get {f : σ → EStateM ε σ β} (hf : Ends (f s) s Q B) :
    Ends (get >>= f) s Q B :=
  hf

/-- What both outcomes leave is left in any case. -/
theorem Ends.leftBy {I : σ → Prop} (h : Ends x s P I) (hp : ∀ a s', P a s' → I s') :
    I (leftBy (x s)) := by
  rw [Ends] at h
  cases hx : x s with
  | ok a s' =>
    rw [hx] at h
    exact hp a s' h
  | error v s' =>
    rw [hx] at h
    exact h

theorem Ends.exists_ok (h : Ends x s P fun _ => False) : ∃ a s', x s = .ok a s' ∧ P a s' := by
  rw [Ends] at h
  cases hx : x s with
  | ok a s' =>
    rw [hx] at h
    exact ⟨a, s', rfl, h⟩
  | error v s' =>
    rw [hx] at h
    exact h.elim

end Clausal
