import Clausal.Matcher.Bind
import Clausal.Proofs.Control

/-!
# What binding makes of a program

A run of binding that succeeds, as a relation between the program before and behind it: all is as it
was, but for the patterns of clauses. What binding keeps is shown by induction on this relation.
-/
namespace Clausal

mutual

/-- What binding makes of an expression. -/
inductive Expr.Binds (config : Config) : Expr → Expr → Prop where
  | literal {s l} : Expr.Binds config (.literal s l) (.literal s l)
  | name {s n} : Expr.Binds config (.name s n) (.name s n)
  | call {s callee callee' args args'} : Expr.Binds config callee callee' →
      Expr.BindsAll config args args' →
      Expr.Binds config (.call s callee args) (.call s callee' args')
  | cond {s c c' t t' e e'} : Expr.Binds config c c' → Expr.Binds config t t' →
      Expr.Binds config e e' → Expr.Binds config (.cond s c t e) (.cond s c' t' e')
  | letIn {s n ns value value' body body'} : Expr.Binds config value value' →
      Expr.Binds config body body' →
      Expr.Binds config (.letIn s n ns value body) (.letIn s n ns value' body')
  | access {s value value' f fs} : Expr.Binds config value value' →
      Expr.Binds config (.access s value f fs) (.access s value' f fs)
  | matching {s scrutinees scrutinees' m m'} : Expr.BindsAll config scrutinees scrutinees' →
      Matcher.Binds config m m' →
      Expr.Binds config (.matching s scrutinees m) (.matching s scrutinees' m')

/-- What binding makes of expressions. -/
inductive Expr.BindsAll (config : Config) : List Expr → List Expr → Prop where
  | nil : Expr.BindsAll config [] []
  | cons {e e' es es'} : Expr.Binds config e e' → Expr.BindsAll config es es' →
      Expr.BindsAll config (e :: es) (e' :: es')

/-- What binding makes of a matcher. -/
inductive Matcher.Binds (config : Config) : Matcher → Matcher → Prop where
  | mk {n ns params result clauses clauses'} : Matcher.ClausesBind config params clauses clauses' →
      Matcher.Binds config ⟨n, ns, params, result, clauses⟩ ⟨n, ns, params, result, clauses'⟩

/-- What binding to placeholders makes of clauses. -/
inductive Matcher.ClausesBind (config : Config) : List Argument → List Clause → List Clause → Prop where
  | nil {params} : Matcher.ClausesBind config params [] []
  | cons {params s ps ps' body body' clauses clauses'} :
      Pattern.bindAll config (Pattern.fitTo params.length body.span ps) params = .ok ps' →
      Expr.Binds config body body' → Matcher.ClausesBind config params clauses clauses' →
      Matcher.ClausesBind config params (⟨s, ps, body⟩ :: clauses) (⟨s, ps', body'⟩ :: clauses')

end

variable {config : Config}

mutual

theorem Expr.binds_of_bindMatchers : ∀ {e e' : Expr}, Expr.bindMatchers config e = .ok e' →
    e.Binds config e'
  | .literal _ _, e', h => by
    cases h
    exact .literal
  | .name _ _, e', h => by
    cases h
    exact .name
  | .call _ callee args, e', h => by
    rw [Expr.bindMatchers] at h
    obtain ⟨callee', hcallee, h⟩ := exists_of_bind_eq_ok h
    obtain ⟨args', hargs, h⟩ := exists_of_bind_eq_ok h
    cases h
    exact .call (Expr.binds_of_bindMatchers hcallee) (Expr.binds_of_bindMatchersAll hargs)
  | .cond _ c t e, e', h => by
    rw [Expr.bindMatchers] at h
    obtain ⟨c', hc, h⟩ := exists_of_bind_eq_ok h
    obtain ⟨t', ht, h⟩ := exists_of_bind_eq_ok h
    obtain ⟨a', ha, h⟩ := exists_of_bind_eq_ok h
    cases h
    exact .cond (Expr.binds_of_bindMatchers hc) (Expr.binds_of_bindMatchers ht)
      (Expr.binds_of_bindMatchers ha)
  | .letIn _ _ _ value body, e', h => by
    rw [Expr.bindMatchers] at h
    obtain ⟨value', hvalue, h⟩ := exists_of_bind_eq_ok h
    obtain ⟨body', hbody, h⟩ := exists_of_bind_eq_ok h
    cases h
    exact .letIn (Expr.binds_of_bindMatchers hvalue) (Expr.binds_of_bindMatchers hbody)
  | .access _ value _ _, e', h => by
    rw [Expr.bindMatchers] at h
    obtain ⟨value', hvalue, h⟩ := exists_of_bind_eq_ok h
    cases h
    exact .access (Expr.binds_of_bindMatchers hvalue)
  | .matching _ scrutinees m, e', h => by
    rw [Expr.bindMatchers] at h
    obtain ⟨scrutinees', hs, h⟩ := exists_of_bind_eq_ok h
    obtain ⟨m', hm, h⟩ := exists_of_bind_eq_ok h
    cases h
    exact .matching (Expr.binds_of_bindMatchersAll hs) (Matcher.binds_of_bind hm)

theorem Expr.binds_of_bindMatchersAll : ∀ {es es' : List Expr},
    Expr.bindMatchersAll config es = .ok es' → Expr.BindsAll config es es'
  | [], es', h => by
    cases h
    exact .nil
  | e :: es, es', h => by
    rw [Expr.bindMatchersAll] at h
    obtain ⟨e', he, h⟩ := exists_of_bind_eq_ok h
    obtain ⟨es'', hes, h⟩ := exists_of_bind_eq_ok h
    cases h
    exact .cons (Expr.binds_of_bindMatchers he) (Expr.binds_of_bindMatchersAll hes)

theorem Matcher.binds_of_bind : ∀ {m m' : Matcher}, m.bind config = .ok m' → m.Binds config m'
  | ⟨_, _, params, _, clauses⟩, m', h => by
    rw [Matcher.bind] at h
    obtain ⟨clauses', hclauses, h⟩ := exists_of_bind_eq_ok h
    cases h
    exact .mk (Matcher.binds_of_bindClauses hclauses)

theorem Matcher.binds_of_bindClauses : ∀ {cs cs' : List Clause} {params : List Argument},
    Matcher.bindClauses config params cs = .ok cs' → Matcher.ClausesBind config params cs cs'
  | [], cs', params, h => by
    cases h
    exact .nil
  | ⟨s, ps, body⟩ :: cs, cs', params, h => by
    rw [Matcher.bindClauses] at h
    obtain ⟨ps', hps, h⟩ := exists_of_bind_eq_ok h
    obtain ⟨body', hbody, h⟩ := exists_of_bind_eq_ok h
    obtain ⟨cs'', hcs, h⟩ := exists_of_bind_eq_ok h
    cases h
    exact .cons hps (Expr.binds_of_bindMatchers hbody) (Matcher.binds_of_bindClauses hcs)

end

theorem Matcher.bind_name {m m' : Matcher} (h : m.bind config = .ok m') : m'.name = m.name := by
  cases Matcher.binds_of_bind h
  rfl

end Clausal
