import Clausal.Matcher.Arity
import Clausal.Proofs.Matcher.Binding
import Clausal.Proofs.Pattern.Steps

/-!
# Bound matchers

A bound matcher has in every clause one pattern for each placeholder, with the places that binding
gives, and so has each matcher inside it. Types are left out, so a matcher is as bound behind the type
checker as it was before it. The checker itself asks for less: that there is a place, whatever it is.
-/
namespace Clausal

mutual

/-- Every pattern in the expression has its places. -/
def Expr.Placed : Expr → Prop
  | .literal _ _ => True
  | .name _ _ => True
  | .call _ callee args => Expr.Placed callee ∧ Expr.PlacedAll args
  | .cond _ c t e => Expr.Placed c ∧ Expr.Placed t ∧ Expr.Placed e
  | .letIn _ _ _ value body => Expr.Placed value ∧ Expr.Placed body
  | .access _ value _ _ => Expr.Placed value
  | .matching _ scrutinees m => Expr.PlacedAll scrutinees ∧ Matcher.Placed m

/-- Every pattern in the expressions has its places. -/
def Expr.PlacedAll : List Expr → Prop
  | [] => True
  | e :: es => Expr.Placed e ∧ Expr.PlacedAll es

/-- Every pattern of the matcher and of the matchers inside it has its places. -/
def Matcher.Placed : Matcher → Prop
  | ⟨_, _, _, _, clauses⟩ => Matcher.ClausesPlaced clauses

/-- Every pattern in the clauses has its places. -/
def Matcher.ClausesPlaced : List Clause → Prop
  | [] => True
  | ⟨_, patterns, body⟩ :: clauses =>
    Pattern.allBound patterns = true ∧ Expr.Placed body ∧ Matcher.ClausesPlaced clauses

end

variable (config : Config)

mutual

/-- Every matcher in the expression is bound. -/
def Expr.Bound : Expr → Prop
  | .literal _ _ => True
  | .name _ _ => True
  | .call _ callee args => Expr.Bound callee ∧ Expr.BoundAll args
  | .cond _ c t e => Expr.Bound c ∧ Expr.Bound t ∧ Expr.Bound e
  | .letIn _ _ _ value body => Expr.Bound value ∧ Expr.Bound body
  | .access _ value _ _ => Expr.Bound value
  | .matching _ scrutinees m => Expr.BoundAll scrutinees ∧ Matcher.Bound m

/-- Every matcher in the expressions is bound. -/
def Expr.BoundAll : List Expr → Prop
  | [] => True
  | e :: es => Expr.Bound e ∧ Expr.BoundAll es

/-- The matcher is bound, and so are the matchers inside it. -/
def Matcher.Bound : Matcher → Prop
  | ⟨_, _, params, _, clauses⟩ => Matcher.ClausesBound params clauses

/-- The clauses are bound to the placeholders. -/
def Matcher.ClausesBound (params : List Argument) : List Clause → Prop
  | [] => True
  | ⟨_, patterns, body⟩ :: clauses =>
    Pattern.AllBoundAt config patterns params ∧ Expr.Bound body ∧ Matcher.ClausesBound params clauses

end

theorem Pattern.bindAll_spec {config : Config} :
    ∀ {ps qs : List Pattern} {params : List Argument}, ps.length = params.length →
      Pattern.bindAll config ps params = .ok qs → Pattern.AllBoundAt config qs params ∧
        (Pattern.stepsAll qs).map Step.unplaced = (Pattern.stepsAll ps).map Step.unplaced
  | [], qs, [], _, h => by
    cases h
    exact ⟨trivial, rfl⟩
  | p :: ps, qs, a :: as, hlen, h => by
    rw [Pattern.bindAll] at h
    obtain ⟨q, hp, h⟩ := exists_of_bind_eq_ok h
    obtain ⟨qs', hps, h⟩ := exists_of_bind_eq_ok h
    cases h
    have hbinds := Pattern.binds_of_bind hp
    obtain ⟨hbs, hsteps⟩ := Pattern.bindAll_spec (Nat.succ.inj hlen) hps
    exact ⟨⟨hbinds.boundAt, hbs⟩,
      by simp only [Pattern.stepsAll, List.map_append, hbinds.steps, hsteps]⟩

theorem Pattern.length_fitTo (arity : Nat) (span : Span) (ps : List Pattern) :
    (Pattern.fitTo arity span ps).length = arity := by
  rw [Pattern.fitTo, List.length_append, List.length_take, List.length_replicate]
  omega

theorem append_subset_append {α : Type} {l₁ l₂ r₁ r₂ : List α} (h₁ : l₁ ⊆ r₁) (h₂ : l₂ ⊆ r₂) :
    l₁ ++ l₂ ⊆ r₁ ++ r₂ :=
  List.append_subset.mpr
    ⟨List.subset_append_of_subset_left _ h₁, List.subset_append_of_subset_right _ h₂⟩

theorem Pattern.fitTo_length (span : Span) (ps : List Pattern) :
    Pattern.fitTo ps.length span ps = ps := by
  rw [Pattern.fitTo, List.take_length, Nat.sub_self, List.replicate_zero, List.append_nil]

variable {config}

mutual

theorem Expr.Bound.placed : ∀ {e : Expr}, e.Bound config → e.Placed
  | .literal _ _, _ => trivial
  | .name _ _, _ => trivial
  | .call _ _ _, ⟨hcallee, hargs⟩ => ⟨hcallee.placed, Expr.BoundAll.placed hargs⟩
  | .cond _ _ _ _, ⟨hc, ht, he⟩ => ⟨hc.placed, ht.placed, he.placed⟩
  | .letIn _ _ _ _ _, ⟨hvalue, hbody⟩ => ⟨hvalue.placed, hbody.placed⟩
  | .access _ _ _ _, h => by
    rw [Expr.Bound] at h
    rw [Expr.Placed]
    exact h.placed
  | .matching _ _ _, ⟨hscrutinees, hm⟩ => ⟨Expr.BoundAll.placed hscrutinees, hm.placed⟩

theorem Expr.BoundAll.placed : ∀ {es : List Expr}, Expr.BoundAll config es → Expr.PlacedAll es
  | [], _ => trivial
  | _ :: _, ⟨he, hes⟩ => ⟨he.placed, Expr.BoundAll.placed hes⟩

/-- Binding gives every pattern its places. -/
theorem Matcher.Bound.placed : ∀ {m : Matcher}, m.Bound config → m.Placed
  | ⟨_, _, _, _, _⟩, h => Matcher.ClausesBound.placed h

theorem Matcher.ClausesBound.placed : ∀ {params : List Argument} {cs : List Clause},
    Matcher.ClausesBound config params cs → Matcher.ClausesPlaced cs
  | _, [], _ => trivial
  | _, ⟨_, _, _⟩ :: _, ⟨hpatterns, hbody, hcs⟩ =>
    ⟨hpatterns.allBound, hbody.placed, Matcher.ClausesBound.placed hcs⟩

end

mutual

theorem Expr.Binds.bound : ∀ {e e' : Expr}, e.Binds config e' → e'.Bound config
  | _, _, .literal => trivial
  | _, _, .name => trivial
  | _, _, .call hcallee hargs => ⟨hcallee.bound, hargs.bound⟩
  | _, _, .cond hc ht he => ⟨hc.bound, ht.bound, he.bound⟩
  | _, _, .letIn hvalue hbody => ⟨hvalue.bound, hbody.bound⟩
  | _, _, .access hvalue => by
    rw [Expr.Bound]
    exact hvalue.bound
  | _, _, .matching hscrutinees hm => ⟨hscrutinees.bound, hm.bound⟩

theorem Expr.BindsAll.bound : ∀ {es es' : List Expr}, Expr.BindsAll config es es' →
    Expr.BoundAll config es'
  | _, _, .nil => trivial
  | _, _, .cons he hes => ⟨he.bound, hes.bound⟩

theorem Matcher.Binds.bound : ∀ {m m' : Matcher}, m.Binds config m' → m'.Bound config
  | _, _, .mk hclauses => hclauses.bound

theorem Matcher.ClausesBind.bound : ∀ {params : List Argument} {cs cs' : List Clause},
    Matcher.ClausesBind config params cs cs' → Matcher.ClausesBound config params cs'
  | _, _, _, .nil => trivial
  | _, _, _, .cons hps hbody hcs =>
    ⟨(Pattern.bindAll_spec (Pattern.length_fitTo _ _ _) hps).1, hbody.bound, hcs.bound⟩

end

theorem Matcher.bind_bound {m m' : Matcher} (h : m.bind config = .ok m') : m'.Bound config :=
  (Matcher.binds_of_bind h).bound

end Clausal
