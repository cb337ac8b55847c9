import Clausal.Proofs.Matcher.Bound

/-!
# Names and placeholders

The names that the clauses and expressions of a program spell, and the placeholders of the matchers in
it. A program is hygienic if no placeholder is spelled: then the bindings of placeholders around a
reduced matcher hide nothing.
-/
namespace Clausal

/-- The name that a step binds or looks up. -/
def Step.name? : Step → Option String
  | .capture n _ => some n
  | .equal (.literal _) _ => none
  | .equal (.name n) _ => some n
  | .tag _ _ => none

theorem Step.name?_of_compared? {s : Step} {n : String} (h : s.compared? = some n) :
    s.name? = some n := by
  rcases s with _ | ⟨_ | _, _⟩ | _ <;> first | exact h | cases h

mutual

/-- The names in an expression, those of its bindings included. -/
def Expr.names : Expr → List String
  | .literal _ _ => []
  | .name _ n => [n]
  | .call _ callee args => callee.names ++ Expr.namesAll args
  | .cond _ c t e => c.names ++ t.names ++ e.names
  | .letIn _ n _ value body => n :: (value.names ++ body.names)
  | .access _ value _ _ => value.names
  | .matching _ scrutinees m => Expr.namesAll scrutinees ++ m.names

/-- The names in expressions. -/
def Expr.namesAll : List Expr → List String
  | [] => []
  | e :: es => e.names ++ Expr.namesAll es

/-- The names in the clauses of a matcher. -/
def Matcher.names : Matcher → List String
  | ⟨_, _, _, _, clauses⟩ => Matcher.clauseNames clauses

/-- The names in clauses. -/
def Matcher.clauseNames : List Clause → List String
  | [] => []
  | ⟨_, patterns, body⟩ :: clauses =>
    (Pattern.stepsAll patterns).filterMap Step.name? ++ body.names ++ Matcher.clauseNames clauses

end

mutual

/-- The placeholders of all matchers in an expression. -/
def Expr.placeholders : Expr → List String
  | .literal _ _ => []
  | .name _ _ => []
  | .call _ callee args => callee.placeholders ++ Expr.placeholdersAll args
  | .cond _ c t e => c.placeholders ++ t.placeholders ++ e.placeholders
  | .letIn _ _ _ value body => value.placeholders ++ body.placeholders
  | .access _ value _ _ => value.placeholders
  | .matching _ scrutinees m => Expr.placeholdersAll scrutinees ++ m.placeholders

/-- The placeholders of all matchers in expressions. -/
def Expr.placeholdersAll : List Expr → List String
  | [] => []
  | e :: es => e.placeholders ++ Expr.placeholdersAll es

/-- The placeholders of a matcher and of all matchers inside it. -/
def Matcher.placeholders : Matcher → List String
  | ⟨_, _, params, _, clauses⟩ => params.map (·.name) ++ Matcher.clausePlaceholders clauses

/-- The placeholders of all matchers in the bodies of clauses. -/
def Matcher.clausePlaceholders : List Clause → List String
  | [] => []
  | ⟨_, _, body⟩ :: clauses => body.placeholders ++ Matcher.clausePlaceholders clauses

end

mutual

/-- Every matcher in the expression has a placeholder, and one scrutinee for each. -/
def Expr.Saturated : Expr → Prop
  | .literal _ _ => True
  | .name _ _ => True
  | .call _ callee args => callee.Saturated ∧ Expr.SaturatedAll args
  | .cond _ c t e => c.Saturated ∧ t.Saturated ∧ e.Saturated
  | .letIn _ _ _ value body => value.Saturated ∧ body.Saturated
  | .access _ value _ _ => value.Saturated
  | .matching _ scrutinees m =>
    0 < m.arity ∧ m.arity = scrutinees.length ∧ Expr.SaturatedAll scrutinees ∧ m.Saturated

/-- Every matcher in the expressions has a placeholder, and one scrutinee for each. -/
def Expr.SaturatedAll : List Expr → Prop
  | [] => True
  | e :: es => e.Saturated ∧ Expr.SaturatedAll es

/-- Every matcher inside the matcher has a placeholder, and one scrutinee for each. -/
def Matcher.Saturated : Matcher → Prop
  | ⟨_, _, _, _, clauses⟩ => Matcher.ClausesSaturated clauses

/-- Every matcher in the bodies has a placeholder, and one scrutinee for each. -/
def Matcher.ClausesSaturated : List Clause → Prop
  | [] => True
  | ⟨_, _, body⟩ :: clauses => body.Saturated ∧ Matcher.ClausesSaturated clauses

end

/-- A bound matcher whose placeholders, those of the matchers inside it included, are distinct and
not among its names. -/
structure Matcher.Hygienic (config : Config) (m : Matcher) : Prop where
  bound : m.Bound config
  saturated : m.Saturated
  nodup : m.placeholders.Nodup
  fresh : ∀ p ∈ m.placeholders, p ∉ m.names

/-- An expression of bound matchers whose placeholders are distinct and not among its names. -/
structure Expr.Hygienic (config : Config) (e : Expr) : Prop where
  bound : e.Bound config
  saturated : e.Saturated
  nodup : e.placeholders.Nodup
  fresh : ∀ p ∈ e.placeholders, p ∉ e.names

/-! ## Names of a bound matcher -/

theorem Step.name?_unplaced (s : Step) : s.unplaced.name? = s.name? := by
  rcases s with _ | ⟨_ | _, _⟩ | _ <;> rfl

theorem Pattern.mem_stepsAll {ps : List Pattern} {s : Step} :
    s ∈ Pattern.stepsAll ps ↔ ∃ p ∈ ps, s ∈ p.steps := by
  induction ps with
  | nil => simp [Pattern.stepsAll]
  | cons p ps ih => simp [Pattern.stepsAll, ih]

theorem Pattern.stepsAll_fitTo {arity : Nat} {span : Span} {ps : List Pattern} :
    Pattern.stepsAll (Pattern.fitTo arity span ps) ⊆ Pattern.stepsAll ps := by
  intro s hs
  obtain ⟨p, hp, hs⟩ := Pattern.mem_stepsAll.mp hs
  rw [Pattern.fitTo, List.mem_append] at hp
  rcases hp with hp | hp
  · exact Pattern.mem_stepsAll.mpr ⟨p, List.mem_of_mem_take hp, hs⟩
  · rw [List.eq_of_mem_replicate hp] at hs
    cases hs

variable {config : Config}

theorem Pattern.bindAll_names {span : Span} {ps qs : List Pattern} {params : List Argument}
    (h : Pattern.bindAll config (Pattern.fitTo params.length span ps) params = .ok qs) :
    (Pattern.stepsAll qs).filterMap Step.name? ⊆ (Pattern.stepsAll ps).filterMap Step.name? := by
  obtain ⟨-, hsteps⟩ := Pattern.bindAll_spec (Pattern.length_fitTo _ _ _) h
  have hunplaced (l : List Step) :
      (l.map Step.unplaced).filterMap Step.name? = l.filterMap Step.name? := by
    rw [List.filterMap_map]
    exact congrArg (List.filterMap · l) (funext Step.name?_unplaced)
  rw [← hunplaced, hsteps, hunplaced]
  exact List.filterMap_subset _ Pattern.stepsAll_fitTo

mutual

theorem Expr.Binds.names : ∀ {e e' : Expr}, e.Binds config e' → e'.names ⊆ e.names
  | _, _, .literal => List.Subset.refl _
  | _, _, .name => List.Subset.refl _
  | _, _, .call hcallee hargs => append_subset_append hcallee.names hargs.names
  | _, _, .cond hc ht he => append_subset_append (append_subset_append hc.names ht.names) he.names
  | _, _, .letIn hvalue hbody =>
    List.cons_subset_cons _ (append_subset_append hvalue.names hbody.names)
  | _, _, .access hvalue => by
    rw [Expr.names, Expr.names]
    exact hvalue.names
  | _, _, .matching hscrutinees hm => append_subset_append hscrutinees.names hm.names

theorem Expr.BindsAll.names : ∀ {es es' : List Expr}, Expr.BindsAll config es es' →
    Expr.namesAll es' ⊆ Expr.namesAll es
  | _, _, .nil => List.Subset.refl _
  | _, _, .cons he hes => append_subset_append he.names hes.names

theorem Matcher.Binds.names : ∀ {m m' : Matcher}, m.Binds config m' → m'.names ⊆ m.names
  | _, _, .mk hclauses => hclauses.names

theorem Matcher.ClausesBind.names : ∀ {params : List Argument} {cs cs' : List Clause},
    Matcher.ClausesBind config params cs cs' → Matcher.clauseNames cs' ⊆ Matcher.clauseNames cs
  | _, _, _, .nil => List.Subset.refl _
  | _, _, _, .cons hps hbody hcs =>
    append_subset_append (append_subset_append (Pattern.bindAll_names hps) hbody.names) hcs.names

end

mutual

theorem Expr.Binds.placeholders : ∀ {e e' : Expr}, e.Binds config e' →
    e'.placeholders = e.placeholders
  | _, _, .literal => rfl
  | _, _, .name => rfl
  | _, _, .call hcallee hargs => by
    rw [Expr.placeholders, Expr.placeholders, hcallee.placeholders, hargs.placeholders]
  | _, _, .cond hc ht he => by
    rw [Expr.placeholders, Expr.placeholders, hc.placeholders, ht.placeholders, he.placeholders]
  | _, _, .letIn hvalue hbody => by
    rw [Expr.placeholders, Expr.placeholders, hvalue.placeholders, hbody.placeholders]
  | _, _, .access hvalue => by
    rw [Expr.placeholders, Expr.placeholders, hvalue.placeholders]
  | _, _, .matching hscrutinees hm => by
    rw [Expr.placeholders, Expr.placeholders, hscrutinees.placeholders, hm.placeholders]

theorem Expr.BindsAll.placeholders : ∀ {es es' : List Expr}, Expr.BindsAll config es es' →
    Expr.placeholdersAll es' = Expr.placeholdersAll es
  | _, _, .nil => rfl
  | _, _, .cons he hes => by
    rw [Expr.placeholdersAll, Expr.placeholdersAll, he.placeholders, hes.placeholders]

theorem Matcher.Binds.placeholders : ∀ {m m' : Matcher}, m.Binds config m' →
    m'.placeholders = m.placeholders
  | _, _, .mk hclauses => by
    rw [Matcher.placeholders, Matcher.placeholders, hclauses.placeholders]

theorem Matcher.ClausesBind.placeholders : ∀ {params : List Argument} {cs cs' : List Clause},
    Matcher.ClausesBind config params cs cs' →
    Matcher.clausePlaceholders cs' = Matcher.clausePlaceholders cs
  | _, _, _, .nil => rfl
  | _, _, _, .cons _ hbody hcs => by
    rw [Matcher.clausePlaceholders, Matcher.clausePlaceholders, hbody.placeholders, hcs.placeholders]

end

/-- Binding spells no name that was not there: a surplus pattern takes its names with it. -/
theorem Matcher.bind_names {m m' : Matcher} (h : m.bind config = .ok m') :
    m'.names ⊆ m.names ∧ m'.placeholders = m.placeholders :=
  ⟨(Matcher.binds_of_bind h).names, (Matcher.binds_of_bind h).placeholders⟩

end Clausal
