import Clausal.Proofs.Substitution.Distinct
import Clausal.Proofs.Unification.Copies
import Clausal.Session

/-!
# The variables that a session hands out

A session is asked for the variable with a name, for a new one, for a copy of a type, or for a matcher with
new placeholders. Every variable is first handed out by the request that it was made for, so the answers,
read from the first to the last, name the variables in the order of their numbers. A program gets a variable
by its name if and only if it asked for that name.
-/
namespace Clausal

namespace Substitution

variable {s s' : Substitution} {v : Var} {i n : Nat}

/-- The variables in the order in which they were made. -/
def vars (s : Substitution) : List Var :=
  s.names.mapIdx fun i name => ⟨i, name⟩

theorem vars_congr (h : s'.names = s.names) : s'.vars = s.vars := by
  rw [vars, vars, h]

theorem map_name_vars (s : Substitution) : s.vars.map (·.name) = s.names :=
  List.ext_getElem? fun i => by simp [vars, List.getElem?_mapIdx, Option.map_map, Function.comp_def]

theorem map_index_vars (s : Substitution) : s.vars.map (·.index) = List.range s.size := by
  refine List.ext_getElem (by simp [vars, length_names]) fun i hi hi' => ?_
  simp [vars]

theorem nodup_vars (s : Substitution) : s.vars.Nodup :=
  List.Nodup.of_map (·.index) (s.map_index_vars ▸ List.nodup_range)

theorem mem_vars : v ∈ s.vars ↔ s.names[v.index]? = some v.name := by
  rw [vars, List.mem_mapIdx]
  constructor
  · rintro ⟨i, hi, rfl⟩
    exact List.getElem?_eq_getElem hi
  · intro h
    obtain ⟨hi, hname⟩ := List.getElem?_eq_some_iff.mp h
    exact ⟨v.index, hi, by rw [hname]⟩

theorem index_lt_of_mem_vars (h : v ∈ s.vars) : v.index < s.size :=
  length_names (s := s) ▸ (List.getElem?_eq_some_iff.mp (mem_vars.mp h)).1

theorem vars_add (s : Substitution) (name : String) : (s.add name).2.vars = s.vars ++ [⟨s.size, name⟩] := by
  rw [vars, names_add, List.mapIdx_concat, length_names, vars]

theorem vars_fresh (s : Substitution) : s.fresh.2.vars = s.vars ++ [s.upcoming 0] :=
  vars_add s _

theorem upcoming_not_mem_vars (s : Substitution) (i : Nat) : s.upcoming i ∉ s.vars := fun h =>
  not_has_upcoming s i (index_lt_of_mem_vars h)

/-! ## Anonymous variables in a row -/

/-- The substitution with this many more anonymous variables. -/
def freshen (s : Substitution) (n : Nat) : Substitution :=
  (fun s => s.fresh.2)^[n] s

theorem freshen_succ (s : Substitution) (n : Nat) : s.freshen (n + 1) = (s.freshen n).fresh.2 :=
  Function.iterate_succ_apply' ..

theorem upcoming_freshen (s : Substitution) (n i : Nat) :
    (s.freshen n).upcoming i = s.upcoming (n + i) := by
  induction n generalizing i with
  | zero => rw [Nat.zero_add]; rfl
  | succ n ih => rw [freshen_succ, fresh_upcoming, ih, Nat.add_right_comm, Nat.add_assoc]

theorem vars_freshen (s : Substitution) (n : Nat) :
    (s.freshen n).vars = s.vars ++ (List.range n).map s.upcoming := by
  induction n with
  | zero => exact (List.append_nil _).symm
  | succ n ih =>
    rw [freshen_succ, vars_fresh, ih, upcoming_freshen, List.range_succ, List.map_append, List.append_assoc]
    rfl

theorem Distinct.freshen (h : s.Distinct) (n : Nat) : (s.freshen n).Distinct := by
  induction n with
  | zero => exact h
  | succ n ih =>
    rw [freshen_succ]
    exact ih.fresh

theorem freshFor_snd (s : Substitution) (vs : List Var) : (s.freshFor vs).2 = s.freshen vs.length := by
  induction vs generalizing s with
  | nil => rfl
  | cons v vs ih => exact ih s.fresh.2

theorem vars_copy (s : Substitution) (t : Ty) :
    (s.instantiate t).1.vars = (List.range (s.resolve t).vars.length).map s.upcoming := by
  rw [instantiate_fst, Ty.vars_bindVars_idxOf s.upcoming_injective]

end Substitution

namespace Session

open Substitution

/-! ## Requests -/

/-- What a session is asked for, and what may happen in between. -/
inductive Request where
  /-- The variable of a program. -/
  | var (name : String)
  /-- A new variable. -/
  | fresh
  /-- A copy of the type. -/
  | instantiate (t : Ty)
  /-- A matcher with a new placeholder for each of these names. -/
  | matcher (name : String) (nameSpan : Span) (placeholders : List String) (clauses : List Clause)
  | unify (t u : Ty)
  /-- Some text gets a symbol. -/
  | intern (text : String)

/-- The types that are handed out. -/
abbrev Answer :=
  Except NameError (List Ty)

/-- The occurrences of variables in an answer. -/
def Answer.occurrences : Answer → List Var
  | .ok ts => Ty.occurrencesAll ts
  | .error _ => []

/-- Requests and their answers, from the first to the last. -/
abbrev History :=
  List (Request × Answer)

/-- The occurrences of variables in all answers. -/
def History.occurrences (h : History) : List Var :=
  h.flatMap fun entry => entry.2.occurrences

def answer (session : Session) : Request → Answer × Session
  | .var name =>
    match session.subst.var? name with
    | .ok (t, s) => (.ok [t], { session with subst := s })
    | .error e => (.error e, session)
  | .fresh =>
    let (t, session) := session.freshTy
    (.ok [t], session)
  | .instantiate t =>
    let (copy, s) := session.subst.instantiate t
    (.ok [copy], { session with subst := s })
  | .matcher name nameSpan placeholders clauses =>
    let (m, session) := session.freshMatcher name nameSpan placeholders.length clauses
    (.ok (m.params.map (·.ty) ++ [m.result]), session)
  | .unify t u => (.ok [], { session with subst := (session.subst.unify t u).2 })
  | .intern _ => (.ok [], session)

/-- Asks one thing after another, and keeps a history of it. -/
def serve {σ : Type} (answer : σ → Request → Answer × σ) (start : σ) (requests : List Request) :
    History × σ :=
  requests.foldl (fun (history, state) request =>
    let (a, state) := answer state request
    (history ++ [(request, a)], state)) ([], start)

variable {s s' : Substitution} {session : Session} {request : Request} {a : Answer}
  {history : History} {n : Nat} {name : String}

theorem serve_concat {σ : Type} (answer : σ → Request → Answer × σ) (start : σ) (requests : List Request)
    (request : Request) :
    let before := serve answer start requests
    let (a, state) := answer before.2 request
    serve answer start (requests ++ [request]) = (before.1 ++ [(request, a)], state) :=
  List.foldl_concat ..

theorem subst_freshArguments (session : Session) (n : Nat) :
    (session.freshArguments n).2.subst = session.subst.freshen n := by
  induction n generalizing session with
  | zero => rfl
  | succ n ih => exact ih _

theorem types_freshArguments (session : Session) (n : Nat) :
    (session.freshArguments n).1.map (·.ty) = (List.range n).map fun i => .var (session.subst.upcoming i) := by
  induction n generalizing session with
  | zero => rfl
  | succ n ih =>
    have hrest := ih (session.freshTy.2.freshArgument session.freshTy.1).2
    rw [freshArguments, List.map_cons, hrest, List.range_succ_eq_map, List.map_cons, List.map_map]
    refine congrArg₂ List.cons rfl (List.map_congr_left fun i _ => ?_)
    exact congrArg Ty.var (fresh_upcoming session.subst i)

/-! ## One request -/

/-- What a request makes of the variables. -/
structure Served (s : Substitution) (request : Request) (a : Answer) (s' : Substitution) : Prop where
  distinct : s'.Distinct
  /-- New variables are in the answer, in their order; all others in it were there before. -/
  vars_eq : (s.vars ++ a.occurrences).eraseDups = s'.vars
  /-- The answer to a name is the variable with this name. -/
  called : ∀ name, request = .var name → checkVarName name = .ok () →
    ∃ i, s'.names[i]? = some name ∧ a = .ok [.var ⟨i, name⟩]
  /-- A new variable of a program was asked for by its name. -/
  accepted : ∀ name ∈ s'.names, checkVarName name = .ok () → name ∈ s.names ∨ request = .var name

theorem Served.names_prefix (h : Served s request a s') : s.names <+: s'.names := by
  have hvars : s.vars <+: s'.vars := by
    rw [← h.vars_eq, List.eraseDups_append, Ty.eraseDups_of_nodup s.nodup_vars]
    exact List.prefix_append ..
  rw [← map_name_vars s, ← map_name_vars s']
  exact hvars.map _

/-- A request that only makes anonymous variables, and hands out all of these. -/
theorem served_fresh (hs' : s'.Distinct) (hvars : s'.vars = s.vars ++ (List.range n).map s.upcoming)
    (ha : a.occurrences.eraseDups = (List.range n).map s.upcoming) (hrequest : ∀ name, request ≠ .var name) :
    Served s request a s' where
  distinct := hs'
  vars_eq := by
    rw [Ty.eraseDups_append_of_disjoint s.nodup_vars, ha, hvars]
    intro v hv
    rw [← List.mem_eraseDups, ha] at hv
    obtain ⟨i, -, rfl⟩ := List.mem_map.mp hv
    exact s.upcoming_not_mem_vars i
  called name he := absurd he (hrequest name)
  accepted := by
    rw [← map_name_vars s', ← map_name_vars s, hvars, List.map_append]
    intro name hname hok
    refine (List.mem_append.mp hname).imp_right fun hnew => ?_
    obtain ⟨v, hv, rfl⟩ := List.mem_map.mp hnew
    obtain ⟨i, -, rfl⟩ := List.mem_map.mp hv
    rw [upcoming, checkVarName_freshName] at hok
    cases hok

/-- A request that makes no variable. -/
theorem served_old (hs' : s'.Distinct) (hnames : s'.names = s.names) (ha : a.occurrences ⊆ s.vars)
    (hcalled : ∀ name, request = .var name → checkVarName name = .ok () →
      ∃ i, s'.names[i]? = some name ∧ a = .ok [.var ⟨i, name⟩]) : Served s request a s' where
  distinct := hs'
  vars_eq := by
    rw [Ty.eraseDups_append_of_subset s.nodup_vars ha, vars_congr hnames]
  called := hcalled
  accepted name hname _ := .inl (hnames ▸ hname)

theorem answer_var_error {e : NameError} (hname : checkVarName name = .error e) :
    session.answer (.var name) = (.error e, session) := by
  rw [answer, Substitution.var?, hname]
  rfl

theorem answer_var_of_mem {i : Nat} (hs : session.subst.Distinct) (hname : checkVarName name = .ok ())
    (hi : session.subst.names[i]? = some name) :
    session.answer (.var name) = (.ok [.var ⟨i, name⟩], session) := by
  rw [answer, hs.var?_eq hname hi]

theorem answer_var_of_not_mem (hname : checkVarName name = .ok ()) (hnew : name ∉ session.subst.names) :
    session.answer (.var name) =
      (.ok [.var ⟨session.subst.size, name⟩], { session with subst := (session.subst.add name).2 }) := by
  rw [answer, var?_of_not_mem hname hnew]
  rfl

/-- A variable of a program, made for the name. -/
theorem served_add (hs : s.Distinct) (hname : checkVarName name = .ok ()) (hnew : name ∉ s.names) :
    Served s (.var name) (.ok [.var ⟨s.size, name⟩]) (s.add name).2 where
  distinct := hs.add hname hnew
  vars_eq := by
    have hdisjoint : ∀ v ∈ [⟨s.size, name⟩], v ∉ s.vars := by
      intro v hv hold
      rw [List.mem_singleton.mp hv] at hold
      exact Nat.lt_irrefl _ (index_lt_of_mem_vars hold)
    rw [vars_add]
    exact Ty.eraseDups_append_of_disjoint s.nodup_vars hdisjoint
  called := by
    rintro _ ⟨⟩ -
    refine ⟨s.size, ?_, rfl⟩
    rw [names_add, ← length_names, List.getElem?_concat_length]
  accepted := by
    intro n hn _
    rw [names_add] at hn
    exact (List.mem_append.mp hn).imp_right fun he => by rw [List.mem_singleton.mp he]

theorem served_var (hs : session.subst.Distinct) (name : String) :
    Served session.subst (.var name) (session.answer (.var name)).1
      (session.answer (.var name)).2.subst := by
  cases hname : checkVarName name with
  | error e =>
    rw [answer_var_error hname]
    refine served_old hs rfl (List.nil_subset _) fun n he hok => ?_
    rw [← Request.var.inj he, hname] at hok
    cases hok
  | ok =>
    by_cases hmem : name ∈ session.subst.names
    · obtain ⟨i, hi⟩ := List.mem_iff_getElem?.mp hmem
      rw [answer_var_of_mem hs hname hi]
      have hold : [⟨i, name⟩] ⊆ session.subst.vars := fun v hv => List.mem_singleton.mp hv ▸ mem_vars.mpr hi
      refine served_old hs rfl hold ?_
      rintro _ ⟨⟩ -
      exact ⟨i, hi, rfl⟩
    · rw [answer_var_of_not_mem hname hmem]
      exact served_add hs hname hmem

/-- The types of a matcher are new variables, one for each placeholder and one for the result. -/
theorem answer_matcher (session : Session) (name : String) (nameSpan : Span) (placeholders : List String)
    (clauses : List Clause) :
    (session.answer (.matcher name nameSpan placeholders clauses)).1 =
        .ok ((List.range (placeholders.length + 1)).map fun i => .var (session.subst.upcoming i)) ∧
      (session.answer (.matcher name nameSpan placeholders clauses)).2.subst =
        session.subst.freshen (placeholders.length + 1) := by
  have hresult : (session.freshArguments placeholders.length).2.subst.fresh.1 =
      .var (session.subst.upcoming placeholders.length) := by
    rw [subst_freshArguments, fresh_eq_upcoming, upcoming_freshen, Nat.add_zero]
  rw [List.range_succ, List.map_append, ← types_freshArguments, List.map_singleton, ← hresult, freshen_succ,
    ← subst_freshArguments]
  exact ⟨rfl, rfl⟩

/-- New variables are handed out, those of a program by their names. -/
theorem served_answer (hs : session.subst.Distinct) (request : Request) :
    Served session.subst request (session.answer request).1 (session.answer request).2.subst := by
  cases request with
  | var name => exact served_var hs name
  | fresh => exact served_fresh (n := 1) hs.fresh (vars_fresh _) rfl fun _ he => by cases he
  | instantiate t =>
    have hsubst : (session.answer (.instantiate t)).2.subst =
        session.subst.freshen (session.subst.resolve t).vars.length := freshFor_snd ..
    rw [hsubst]
    refine served_fresh (hs.freshen _) (vars_freshen _ _) ?_ fun _ he => by cases he
    rw [← vars_copy, Ty.vars, answer, Answer.occurrences, Ty.occurrencesAll, Ty.occurrencesAll,
      List.append_nil]
  | matcher name nameSpan placeholders clauses =>
    obtain ⟨ha, hsubst⟩ := answer_matcher session name nameSpan placeholders clauses
    rw [ha, hsubst]
    refine served_fresh (hs.freshen _) (vars_freshen _ _) ?_ fun _ he => by cases he
    have hnodup : ((List.range (placeholders.length + 1)).map session.subst.upcoming).Nodup :=
      List.nodup_range.map (upcoming_injective _)
    rw [Answer.occurrences, Ty.occurrencesAll_eq_flatMap, List.flatMap_map]
    simp only [Ty.occurrences]
    rw [← List.map_eq_flatMap, Ty.eraseDups_of_nodup hnodup]
  | unify t u => exact served_old (hs.unify t u) names_unify (List.nil_subset _) fun _ he => by cases he
  | intern text => exact served_old hs rfl (List.nil_subset _) fun _ he => by cases he

/-! ## All requests -/

/-- What a history tells of the variables there are. -/
structure Accounts (h : History) (s : Substitution) : Prop where
  distinct : s.Distinct
  vars_eq : h.occurrences.eraseDups = s.vars
  called : ∀ name a, (.var name, a) ∈ h → checkVarName name = .ok () →
    ∃ i, s.names[i]? = some name ∧ a = .ok [.var ⟨i, name⟩]
  accepted : ∀ name ∈ s.names, checkVarName name = .ok () → ∃ a, (.var name, a) ∈ h

theorem accounts_nil : Accounts [] {} where
  distinct := distinct_empty
  vars_eq := rfl
  called := nofun
  accepted := nofun

theorem Accounts.concat (h : Accounts history s) (hserved : Served s request a s') :
    Accounts (history ++ [(request, a)]) s' where
  distinct := hserved.distinct
  vars_eq := by
    rw [History.occurrences, List.flatMap_append, List.flatMap_singleton, ← Ty.eraseDups_eraseDups_append,
      ← hserved.vars_eq, ← h.vars_eq]
    rfl
  called name b hmem hname := by
    rcases List.mem_append.mp hmem with hmem | hmem
    · obtain ⟨i, hi, hb⟩ := h.called name b hmem hname
      obtain ⟨hlt, hget⟩ := List.getElem?_eq_some_iff.mp hi
      have hkept := List.prefix_iff_getElem?.mp hserved.names_prefix i hlt
      exact ⟨i, hkept.trans (congrArg some hget), hb⟩
    · cases List.mem_singleton.mp hmem
      exact hserved.called name rfl hname
  accepted name hmem hname := by
    rcases hserved.accepted name hmem hname with hold | rfl
    · obtain ⟨b, hb⟩ := h.accepted name hold hname
      exact ⟨b, List.mem_append_left _ hb⟩
    · exact ⟨a, List.mem_append_right _ (List.mem_singleton_self _)⟩

/-- Whatever is asked for, and in whatever order, the answers account for all variables. -/
theorem accounts_serve (requests : List Request) :
    Accounts (serve answer {} requests).1 (serve answer {} requests).2.subst := by
  induction requests using List.reverseRecOn with
  | nil => exact accounts_nil
  | append_singleton requests request ih =>
    rw [serve_concat]
    exact ih.concat (served_answer ih.distinct request)

end Session
end Clausal
