import Clausal.Proofs.Matcher.Bound
import Clausal.Proofs.Matcher.Names
import Mathlib.Data.List.Basic

/-!
# Names compared with behind their captures

The checker knows a capture to its right in the clause, so an equality pattern may compare with it.
The reducer tests all conditions of a clause before it binds any of its captures. A name that is
compared with behind its capture, and that nothing around the clause binds, is called a stray here.
Binding patterns to their places makes no difference to them.
-/
namespace Clausal

/-- The names that steps compare with, of those captured before or given. -/
def Step.strays (captured : List String) : List Step → List String
  | [] => []
  | s :: l => s.compared?.toList.filter (· ∈ captured) ++
    Step.strays (s.captured?.toList ++ captured) l

mutual

/-- The names in an expression that a clause compares with behind its capture of them, and that
nothing else in the expression binds there. Clauses behind one without tests are left out. -/
def Expr.strays : Expr → List String
  | .literal _ _ => []
  | .name _ _ => []
  | .call _ callee args => callee.strays ++ Expr.straysAll args
  | .cond _ c t e => c.strays ++ t.strays ++ e.strays
  | .letIn _ n _ value body => value.strays ++ body.strays.filter (· ≠ n)
  | .access _ value _ _ => value.strays
  | .matching _ scrutinees m => Expr.straysAll scrutinees ++ m.strays

/-- Such names in expressions. -/
def Expr.straysAll : List Expr → List String
  | [] => []
  | e :: es => e.strays ++ Expr.straysAll es

/-- Such names in the clauses of a matcher. -/
def Matcher.strays : Matcher → List String
  | ⟨_, _, _, _, clauses⟩ => Matcher.clauseStrays clauses

/-- Such names in clauses, up to the first clause without tests. -/
def Matcher.clauseStrays : List Clause → List String
  | [] => []
  | ⟨_, patterns, body⟩ :: clauses =>
    Step.strays [] (Pattern.stepsAll patterns) ++
    body.strays.filter (· ∉ Pattern.capturesAll patterns) ++
    if (Pattern.stepsAll patterns).any Step.isTest then Matcher.clauseStrays clauses else []

end

variable {n : String} {captured : List String} {config : Config}

theorem Step.compared_of_mem_strays (h : n ∈ Step.strays captured l) :
    ∃ s ∈ l, s.compared? = some n := by
  induction l generalizing captured with
  | nil => cases h
  | cons s l ih =>
    rw [Step.strays, List.mem_append, List.mem_filter, Option.mem_toList] at h
    rw [List.exists_mem_cons_iff]
    exact h.imp (fun h => h.1) ih

theorem Step.strays_unplaced (captured : List String) (l : List Step) :
    Step.strays captured (l.map Step.unplaced) = Step.strays captured l := by
  induction l generalizing captured with
  | nil => rfl
  | cons s l ih =>
    rw [List.map_cons, Step.strays, Step.strays, Step.compared?_unplaced, Step.captured?_unplaced, ih]

/-! ## Strays are names -/

mutual

theorem Expr.names_of_strays : ∀ {e : Expr}, n ∈ e.strays → n ∈ e.names
  | .literal _ _, h => h
  | .name _ _, h => by cases h
  | .call _ callee args, h => by
    rw [Expr.strays, List.mem_append] at h
    rw [Expr.names, List.mem_append]
    exact h.imp Expr.names_of_strays Expr.namesAll_of_strays
  | .cond _ c t e, h => by
    rw [Expr.strays, List.mem_append, List.mem_append] at h
    rw [Expr.names, List.mem_append, List.mem_append]
    exact h.imp (Or.imp Expr.names_of_strays Expr.names_of_strays) Expr.names_of_strays
  | .letIn _ m _ value body, h => by
    rw [Expr.strays, List.mem_append, List.mem_filter] at h
    rw [Expr.names, List.mem_cons, List.mem_append]
    exact .inr (h.imp Expr.names_of_strays fun h => Expr.names_of_strays h.1)
  | .access _ value _ _, h => by
    rw [Expr.strays] at h
    rw [Expr.names]
    exact Expr.names_of_strays h
  | .matching _ scrutinees m, h => by
    rw [Expr.strays, List.mem_append] at h
    rw [Expr.names, List.mem_append]
    exact h.imp Expr.namesAll_of_strays Matcher.names_of_strays

theorem Expr.namesAll_of_strays : ∀ {es : List Expr}, n ∈ Expr.straysAll es → n ∈ Expr.namesAll es
  | [], h => h
  | e :: es, h => by
    rw [Expr.straysAll, List.mem_append] at h
    rw [Expr.namesAll, List.mem_append]
    exact h.imp Expr.names_of_strays Expr.namesAll_of_strays

theorem Matcher.names_of_strays : ∀ {m : Matcher}, n ∈ m.strays → n ∈ m.names
  | ⟨_, _, _, _, clauses⟩, h => by
    rw [Matcher.strays] at h
    rw [Matcher.names]
    exact Matcher.clauseNames_of_strays h

theorem Matcher.clauseNames_of_strays : ∀ {cs : List Clause}, n ∈ Matcher.clauseStrays cs →
    n ∈ Matcher.clauseNames cs
  | [], h => h
  | ⟨_, patterns, body⟩ :: cs, h => by
    rw [Matcher.clauseStrays, List.mem_append, List.mem_append, List.mem_filter] at h
    rw [Matcher.clauseNames, List.mem_append, List.mem_append]
    rcases h with (h | h) | h
    · obtain ⟨s, hs, hc⟩ := Step.compared_of_mem_strays h
      exact .inl (.inl (List.mem_filterMap.mpr ⟨s, hs, Step.name?_of_compared? hc⟩))
    · exact .inl (.inr (Expr.names_of_strays h.1))
    · split at h
      · exact .inr (Matcher.clauseNames_of_strays h)
      · cases h

end

/-! ## Strays of a bound matcher -/

theorem Clause.length_of_arityReport {c : Clause} {arity : Nat} (h : c.arityReport arity = []) :
    c.patterns.length = arity := by
  by_contra hne
  rw [Clause.arityReport, if_neg hne] at h
  cases h

theorem captures_unplaced (l : List Step) :
    (l.map Step.unplaced).filterMap Step.captured? = l.filterMap Step.captured? := by
  rw [List.filterMap_map]
  exact List.filterMap_congr fun s _ => s.captured?_unplaced

theorem any_isTest_unplaced (l : List Step) :
    (l.map Step.unplaced).any Step.isTest = l.any Step.isTest := by
  rw [List.any_map]
  exact congrArg l.any (funext Step.isTest_unplaced)

mutual

theorem Expr.Binds.strays : ∀ {e e' : Expr}, e.Binds config e' → e.arityReports = [] →
    e'.strays = e.strays
  | _, _, .literal, _ => rfl
  | _, _, .name, _ => rfl
  | _, _, .call hcallee hargs, ha => by
    rw [Expr.arityReports, List.append_eq_nil_iff] at ha
    rw [Expr.strays, Expr.strays, hcallee.strays ha.1, hargs.strays ha.2]
  | _, _, .cond hc ht he, ha => by
    rw [Expr.arityReports, List.append_eq_nil_iff, List.append_eq_nil_iff] at ha
    rw [Expr.strays, Expr.strays, hc.strays ha.1.1, ht.strays ha.1.2, he.strays ha.2]
  | _, _, .letIn hvalue hbody, ha => by
    rw [Expr.arityReports, List.append_eq_nil_iff] at ha
    rw [Expr.strays, Expr.strays, hvalue.strays ha.1, hbody.strays ha.2]
  | _, _, .access hvalue, ha => by
    rw [Expr.arityReports] at ha
    rw [Expr.strays, Expr.strays, hvalue.strays ha]
  | _, _, .matching hscrutinees hm, ha => by
    rw [Expr.arityReports, List.append_eq_nil_iff] at ha
    rw [Expr.strays, Expr.strays, hscrutinees.strays ha.1, hm.strays ha.2]

theorem Expr.BindsAll.strays : ∀ {es es' : List Expr}, Expr.BindsAll config es es' →
    Expr.arityReportsAll es = [] → Expr.straysAll es' = Expr.straysAll es
  | _, _, .nil, _ => rfl
  | _, _, .cons he hes, ha => by
    rw [Expr.arityReportsAll, List.append_eq_nil_iff] at ha
    rw [Expr.straysAll, Expr.straysAll, he.strays ha.1, hes.strays ha.2]

theorem Matcher.Binds.strays : ∀ {m m' : Matcher}, m.Binds config m' → m.arityReports = [] →
    m'.strays = m.strays
  | _, _, .mk hclauses, ha => by
    rw [Matcher.arityReports] at ha
    rw [Matcher.strays, Matcher.strays, hclauses.strays ha]

theorem Matcher.ClausesBind.strays : ∀ {params : List Argument} {cs cs' : List Clause},
    Matcher.ClausesBind config params cs cs' → Matcher.clauseArityReports params.length cs = [] →
    Matcher.clauseStrays cs' = Matcher.clauseStrays cs
  | _, _, _, .nil, _ => rfl
  | _, _, _, @Matcher.ClausesBind.cons _ params _ ps ps' _ _ _ _ hps hbody hcs, ha => by
    rw [Matcher.clauseArityReports, List.append_eq_nil_iff, List.append_eq_nil_iff] at ha
    obtain ⟨⟨hreport, hbodyReports⟩, hrest⟩ := ha
    have hlen : ps.length = params.length := Clause.length_of_arityReport hreport
    rw [← hlen, Pattern.fitTo_length] at hps
    obtain ⟨-, hsteps⟩ := Pattern.bindAll_spec hlen hps
    have hstrays : Step.strays [] (Pattern.stepsAll ps') = Step.strays [] (Pattern.stepsAll ps) := by
      rw [← Step.strays_unplaced, hsteps, Step.strays_unplaced]
    have hcaptures : Pattern.capturesAll ps' = Pattern.capturesAll ps := by
      rw [Pattern.capturesAll, ← captures_unplaced, hsteps, captures_unplaced, Pattern.capturesAll]
    have htests : (Pattern.stepsAll ps').any Step.isTest = (Pattern.stepsAll ps).any Step.isTest := by
      rw [← any_isTest_unplaced, hsteps, any_isTest_unplaced]
    rw [Matcher.clauseStrays, Matcher.clauseStrays, hstrays, hcaptures, htests,
      hbody.strays hbodyReports, hcs.strays hrest]

end

theorem Matcher.bind_strays {m m' : Matcher} (h : m.bind config = .ok m') (ha : m.arityReports = []) :
    m'.strays = m.strays :=
  (Matcher.binds_of_bind h).strays ha

end Clausal
