import Clausal.Proofs.Reduction.Patterns

/-!
# Reduction keeps the meaning of matchers

A reduced matcher, applied to arguments, comes to what its clauses mean; a reduced expression has the
value that its syntax has. Both sides have the same values, the same errors and need the same depth of
definitions. The bindings of placeholders are the only locals that reduction adds, so the locals of
both sides agree on every name that is not a placeholder.
-/
namespace Clausal

section

variable (config : Config) (hidden : List String)

mutual

/-- Bound, with a scrutinee for each placeholder, and with the hidden names used for placeholders only. -/
def Expr.Ready : Expr → Prop
  | .literal _ _ => True
  | .name _ n => n ∉ hidden
  | .call _ callee args => Expr.Ready callee ∧ Expr.ReadyAll args
  | .cond _ c t e => Expr.Ready c ∧ Expr.Ready t ∧ Expr.Ready e
  | .letIn _ n _ value body => n ∉ hidden ∧ Expr.Ready value ∧ Expr.Ready body
  | .access _ value _ _ => Expr.Ready value
  | .matching _ scrutinees m =>
    0 < m.arity ∧ m.arity = scrutinees.length ∧ Expr.ReadyAll scrutinees ∧ Matcher.Ready m

/-- All expressions are ready. -/
def Expr.ReadyAll : List Expr → Prop
  | [] => True
  | e :: es => Expr.Ready e ∧ Expr.ReadyAll es

/-- A ready matcher has hidden placeholders, each of another name. -/
def Matcher.Ready : Matcher → Prop
  | ⟨_, _, params, _, clauses⟩ => (params.map (·.name)).Nodup ∧ (∀ a ∈ params, a.name ∈ hidden) ∧
    Matcher.ClausesReady params clauses

/-- The clauses are ready for the placeholders. -/
def Matcher.ClausesReady (params : List Argument) : List Clause → Prop
  | [] => True
  | ⟨_, patterns, body⟩ :: clauses => Pattern.AllBoundAt config patterns params ∧
    Open hidden (Pattern.stepsAll patterns) ∧ Expr.Ready body ∧ Matcher.ClausesReady params clauses

end

end

variable {config : Config} {hidden : List String} {apply : Apply}

/-! ## Hygienic programs are ready -/

mutual

theorem Expr.ready_of : ∀ {e : Expr}, e.Bound config → e.Saturated → e.placeholders.Nodup →
    (∀ p ∈ e.placeholders, p ∈ hidden) → (∀ n ∈ e.names, n ∉ hidden) → e.Ready config hidden
  | .literal _ _, _, _, _, _, _ => trivial
  | .name _ n, _, _, _, _, hnames => hnames n (List.mem_singleton.mpr rfl)
  | .call _ callee args, hb, hs, hd, hp, hn => by
    rw [Expr.placeholders] at hd hp
    rw [Expr.names] at hn
    rw [List.nodup_append] at hd
    rw [List.forall_mem_append] at hp hn
    exact ⟨Expr.ready_of hb.1 hs.1 hd.1 hp.1 hn.1, Expr.readyAll_of hb.2 hs.2 hd.2.1 hp.2 hn.2⟩
  | .cond _ c t e, hb, hs, hd, hp, hn => by
    rw [Expr.placeholders] at hd hp
    rw [Expr.names] at hn
    rw [List.nodup_append, List.nodup_append] at hd
    rw [List.forall_mem_append, List.forall_mem_append] at hp hn
    exact ⟨Expr.ready_of hb.1 hs.1 hd.1.1 hp.1.1 hn.1.1,
      Expr.ready_of hb.2.1 hs.2.1 hd.1.2.1 hp.1.2 hn.1.2,
      Expr.ready_of hb.2.2 hs.2.2 hd.2.1 hp.2 hn.2⟩
  | .letIn _ n _ value body, hb, hs, hd, hp, hn => by
    rw [Expr.placeholders] at hd hp
    rw [Expr.names] at hn
    rw [List.nodup_append] at hd
    rw [List.forall_mem_append] at hp
    rw [List.forall_mem_cons, List.forall_mem_append] at hn
    exact ⟨hn.1, Expr.ready_of hb.1 hs.1 hd.1 hp.1 hn.2.1,
      Expr.ready_of hb.2 hs.2 hd.2.1 hp.2 hn.2.2⟩
  | .access _ value _ _, hb, hs, hd, hp, hn => by
    rw [Expr.Ready]
    exact Expr.ready_of hb hs hd hp hn
  | .matching _ scrutinees m, hb, hs, hd, hp, hn => by
    obtain ⟨hpos, hlen, hss, hsm⟩ := hs
    rw [Expr.placeholders] at hd hp
    rw [Expr.names] at hn
    rw [List.nodup_append] at hd
    rw [List.forall_mem_append] at hp hn
    exact ⟨hpos, hlen, Expr.readyAll_of hb.1 hss hd.1 hp.1 hn.1,
      Matcher.ready_of hb.2 hsm hd.2.1 hp.2 hn.2⟩

theorem Expr.readyAll_of : ∀ {es : List Expr}, Expr.BoundAll config es → Expr.SaturatedAll es →
    (Expr.placeholdersAll es).Nodup → (∀ p ∈ Expr.placeholdersAll es, p ∈ hidden) →
    (∀ n ∈ Expr.namesAll es, n ∉ hidden) → Expr.ReadyAll config hidden es
  | [], _, _, _, _, _ => trivial
  | e :: es, hb, hs, hd, hp, hn => by
    rw [Expr.placeholdersAll] at hd hp
    rw [Expr.namesAll] at hn
    rw [List.nodup_append] at hd
    rw [List.forall_mem_append] at hp hn
    exact ⟨Expr.ready_of hb.1 hs.1 hd.1 hp.1 hn.1, Expr.readyAll_of hb.2 hs.2 hd.2.1 hp.2 hn.2⟩

theorem Matcher.ready_of : ∀ {m : Matcher}, m.Bound config → m.Saturated → m.placeholders.Nodup →
    (∀ p ∈ m.placeholders, p ∈ hidden) → (∀ n ∈ m.names, n ∉ hidden) → m.Ready config hidden
  | ⟨_, _, params, _, clauses⟩, hb, hs, hd, hp, hn => by
    rw [Matcher.placeholders] at hd hp
    rw [Matcher.names] at hn
    rw [List.nodup_append] at hd
    rw [List.forall_mem_append, List.forall_mem_map] at hp
    exact ⟨hd.1, hp.1, Matcher.clausesReady_of hb hs hd.2.1 hp.2 hn⟩

theorem Matcher.clausesReady_of : ∀ {cs : List Clause} {params : List Argument},
    Matcher.ClausesBound config params cs → Matcher.ClausesSaturated cs →
    (Matcher.clausePlaceholders cs).Nodup → (∀ p ∈ Matcher.clausePlaceholders cs, p ∈ hidden) →
    (∀ n ∈ Matcher.clauseNames cs, n ∉ hidden) → Matcher.ClausesReady config hidden params cs
  | [], _, _, _, _, _, _ => trivial
  | ⟨_, patterns, body⟩ :: cs, params, hb, hs, hd, hp, hn => by
    rw [Matcher.clausePlaceholders] at hd hp
    rw [Matcher.clauseNames] at hn
    rw [List.nodup_append] at hd
    rw [List.forall_mem_append] at hp
    rw [List.forall_mem_append, List.forall_mem_append] at hn
    refine ⟨hb.1, fun s hmem n hname => ?_, Expr.ready_of hb.2.1 hs.1 hd.1 hp.1 hn.1.2,
      Matcher.clausesReady_of hb.2.2 hs.2 hd.2.1 hp.2 hn.2⟩
    exact hn.1.1 n (List.mem_filterMap.mpr ⟨s, hmem, hname⟩)

end

/-! ## Calls -/

variable {locals env : Locals}

theorem Expr.eval_call_of_ne {s : Span} {callee : Expr} {args : List Expr}
    (h : ∀ s n, callee ≠ .name s n) :
    (Expr.call s callee args).eval config apply env =
      (do throw (.notAFunction (← callee.eval config apply env))) := by
  rw [Expr.eval]
  exact h

/-- Only a name is reduced to a symbol: a matcher with placeholders is reduced to a binding. -/
theorem Expr.lowered_ne {e : Expr} (hready : e.Ready config hidden) (h : ∀ s n, e ≠ .name s n) :
    (∀ n, e.lowered ≠ .symbol n) ∧ ∀ b, e.lowered ≠ .builtin b := by
  cases e with
  | name s n => exact absurd rfl (h s n)
  | matching s scrutinees m =>
    obtain ⟨name, ns, params, result, clauses⟩ := m
    obtain ⟨hpos, hlen, -, -⟩ := hready
    match params, scrutinees, hpos, hlen with
    | a :: params, e :: es, _, _ =>
      rw [Expr.lowered, Expr.loweredAll, List.map_cons, List.zip_cons_cons, Tree.letAll,
        List.foldr_cons]
      exact ⟨fun _ => Tree.noConfusion, fun _ => Tree.noConfusion⟩
  | _ =>
    rw [Expr.lowered]
    exact ⟨fun _ => Tree.noConfusion, fun _ => Tree.noConfusion⟩

/-! ## Placeholders -/

theorem lookup_append_of_mem {n : String} {v : Value} : ∀ {l : Locals}, (l.map Prod.fst).Nodup →
    (n, v) ∈ l → (l ++ locals).lookup n = some v
  | (m, w) :: l, hd, hmem => by
    rw [List.map_cons, List.nodup_cons] at hd
    rw [List.cons_append, List.lookup_cons]
    rcases List.mem_cons.mp hmem with he | htail
    · cases he
      simp
    · have hne : n ≠ m := by
        rintro rfl
        exact hd.1 (List.mem_map.mpr ⟨_, htail, rfl⟩)
      rw [beq_false_of_ne hne]
      exact lookup_append_of_mem hd.2 htail

/-- The locals with the arguments bound to the placeholders. -/
def withArguments (params : List Argument) (args : List Value) (locals : Locals) : Locals :=
  ((params.map (·.name)).zip args).reverse ++ locals

theorem withArguments_cons (a : Argument) (params : List Argument) (v : Value) (args : List Value) :
    withArguments (a :: params) (v :: args) locals =
      withArguments params args ((a.name, v) :: locals) := by
  rw [withArguments, withArguments, List.map_cons, List.zip_cons_cons, List.reverse_cons,
    List.append_assoc, List.singleton_append]

theorem showsAll_withArguments {params : List Argument} {args : List Value}
    (hlen : params.length = args.length) (hd : (params.map (·.name)).Nodup)
    (hhidden : ∀ a ∈ params, a.name ∈ hidden) :
    ShowsAll apply hidden (withArguments params args locals) params args := by
  rw [ShowsAll, List.forall₂_iff_zip]
  refine ⟨hlen, fun {a v} hmem => ?_⟩
  refine Shows.argument (hhidden a (List.of_mem_zip hmem).1) (lookup_append_of_mem ?_ ?_)
  · have hle : (params.map (·.name)).length ≤ args.length :=
      Nat.le_of_eq ((List.length_map _).trans hlen)
    rw [List.map_reverse, List.map_fst_zip hle, List.nodup_reverse]
    exact hd
  · rw [List.mem_reverse, List.zip_map_left, List.mem_map]
    exact ⟨(a, v), hmem, rfl⟩

theorem Agree.withArguments (h : Agree hidden locals env) {params : List Argument}
    (hhidden : ∀ a ∈ params, a.name ∈ hidden) (args : List Value) :
    Agree hidden (withArguments params args locals) env := by
  refine h.hide fun x hx => ?_
  obtain ⟨hmem, -⟩ := List.of_mem_zip (List.mem_reverse.mp hx)
  obtain ⟨a, ha, he⟩ := List.mem_map.mp hmem
  rw [← he]
  exact hhidden a ha

/-! ## Expressions and clauses -/

theorem Expr.length_of_evalAll : ∀ {es : List Expr} {vs : List Value},
    Expr.evalAll config apply env es = pure vs → vs.length = es.length
  | [], vs, h => by
    cases h
    rfl
  | e :: es, vs, h => by
    rw [Expr.evalAll] at h
    obtain ⟨v, -, h⟩ := exists_of_bind_eq_pure h
    obtain ⟨ws, hws, h⟩ := exists_of_bind_eq_pure h
    cases h
    rw [List.length_cons, List.length_cons, Expr.length_of_evalAll hws]

mutual

theorem Expr.eval_lowered : ∀ {e : Expr} {locals env : Locals}, e.Ready config hidden →
    Agree hidden locals env → e.lowered.eval apply locals = e.eval config apply env
  | .literal _ _, _, _, _, _ => rfl
  | .name _ n, _, _, hn, h => h.valueOf hn
  | .call s callee args, locals, env, ⟨hcallee, hargs⟩, h => by
    -- a name is looked up as a definition, anything else is evaluated and then refused
    by_cases hname : ∃ s n, callee = .name s n
    · obtain ⟨s', n, rfl⟩ := hname
      rw [Expr.Ready] at hcallee
      rw [Expr.lowered, Expr.lowered, Tree.eval, h n hcallee, Expr.evalAll_lowered hargs h]
      rfl
    · have hne : ∀ s n, callee ≠ .name s n := fun s n he => hname ⟨s, n, he⟩
      obtain ⟨hsymbol, hbuiltin⟩ := Expr.lowered_ne hcallee hne
      rw [Expr.lowered, Tree.eval_call_of_ne hsymbol hbuiltin, Expr.eval_call_of_ne hne,
        Expr.eval_lowered hcallee h]
  | .cond _ c t e, locals, env, ⟨hc, ht, he⟩, h => by
    rw [Expr.lowered, Tree.eval, Expr.eval, Expr.eval_lowered hc h, Expr.eval_lowered ht h,
      Expr.eval_lowered he h]
  | .letIn _ n _ value body, locals, env, ⟨_, hvalue, hbody⟩, h => by
    rw [Expr.lowered, Tree.eval, Expr.eval, Expr.eval_lowered hvalue h]
    refine bind_congr fun v => ?_
    exact Expr.eval_lowered hbody (h.append [(n, v)])
  | .access _ value f _, locals, env, hvalue, h => by
    rw [Expr.Ready] at hvalue
    rw [Expr.lowered, Tree.eval, Expr.eval, Expr.eval_lowered hvalue h, projected]
  | .matching _ scrutinees ⟨name, _, params, _, clauses⟩, locals, env,
      ⟨_, hlen, hscrutinees, hd, hhidden, hclauses⟩, h => by
    rw [Expr.lowered, Tree.eval_letAll, Expr.eval, Expr.enter_lowered hlen hhidden hscrutinees h,
      bind_assoc]
    -- the placeholders have values only where all scrutinees have
    rcases evalM_cases (Expr.evalAll config apply env scrutinees) with hs | ⟨x, hs⟩ | ⟨args, hs⟩
    · rw [hs]
      rfl
    · rw [hs]
      rfl
    · rw [hs, pure_bind, pure_bind, pure_bind]
      have hargs : params.length = args.length := hlen.trans (Expr.length_of_evalAll hs).symm
      exact Matcher.select_lowered name hclauses (showsAll_withArguments hargs hd hhidden)
        (h.withArguments hhidden args)

theorem Expr.evalAll_lowered : ∀ {es : List Expr} {locals env : Locals},
    Expr.ReadyAll config hidden es → Agree hidden locals env →
    Tree.evalAll apply locals (Expr.loweredAll es) = Expr.evalAll config apply env es
  | [], _, _, _, _ => rfl
  | e :: es, locals, env, ⟨he, hes⟩, h => by
    rw [Expr.loweredAll, Tree.evalAll, Expr.evalAll, Expr.eval_lowered he h,
      Expr.evalAll_lowered hes h]

theorem Expr.enter_lowered : ∀ {es : List Expr} {params : List Argument} {locals env : Locals},
    params.length = es.length → (∀ a ∈ params, a.name ∈ hidden) → Expr.ReadyAll config hidden es →
    Agree hidden locals env →
    Tree.enter apply ((params.map (·.name)).zip (Expr.loweredAll es)) locals =
      (do return withArguments params (← Expr.evalAll config apply env es) locals)
  | [], [], _, _, _, _, _, _ => rfl
  | e :: es, a :: params, locals, env, hlen, hhidden, ⟨he, hes⟩, h => by
    obtain ⟨ha, hparams⟩ := List.forall_mem_cons.mp hhidden
    rw [Expr.loweredAll, List.map_cons, List.zip_cons_cons, Tree.enter, Expr.evalAll,
      Expr.eval_lowered he h, bind_assoc]
    refine bind_congr fun v => ?_
    rw [Expr.enter_lowered (Nat.succ.inj hlen) hparams hes (h.hide_cons ha v), bind_assoc]
    refine bind_congr fun args => ?_
    rw [pure_bind, withArguments_cons]

theorem Matcher.select_lowered : ∀ {cs : List Clause} {params : List Argument} {args : List Value}
    {locals env : Locals} (name : String), Matcher.ClausesReady config hidden params cs →
    ShowsAll apply hidden locals params args → Agree hidden locals env →
    (ClauseState.chain (.fault name) (Matcher.clauseStates cs)).eval apply locals =
      Matcher.select config apply env name cs args
  | [], _, _, _, _, _, _, _, _ => rfl
  | ⟨_, patterns, body⟩ :: cs, params, args, locals, env, name, ⟨hb, hopen, hbody, hcs⟩, hs, h => by
    have haccept := Pattern.allAccept_run h hb hopen hs
    rw [Matcher.clauseStates, ClauseState.eval_chain_cons, Matcher.select, ClauseState.toTree,
      ClauseState.fill, List.nil_append, List.nil_append, haccept, bind_assoc]
    rcases evalM_cases (Pattern.allAccept config apply env patterns args)
      with ha | ⟨x, ha⟩ | ⟨_ | _, ha⟩
    · rw [ha]
      rfl
    · rw [ha]
      rfl
    · rw [ha]
      exact Matcher.select_lowered name hcs hs h
    · -- the body sees the captures first, and placeholders that it cannot spell below them
      have hcaptured := Pattern.allCaptured_run hb hopen hs ha
      have hbody' (news : Locals) := Expr.eval_lowered hbody (h.append news)
      rw [ha, pure_bind, pure_bind, pure_bind, asBool_ofBool, pure_bind, if_pos rfl, if_pos rfl,
        Tree.eval_letAll, hcaptured.enter_eq, bind_assoc]
      refine bind_congr fun news => ?_
      rw [pure_bind, hbody' news]

end

/-! ## Programs -/

theorem Matcher.Hygienic.ready {m : Matcher} (h : m.Hygienic config) :
    m.Ready config m.placeholders :=
  Matcher.ready_of h.bound h.saturated h.nodup (fun _ hp => hp) fun n hn hp => h.fresh n hp hn

theorem Expr.Hygienic.ready {e : Expr} (h : e.Hygienic config) : e.Ready config e.placeholders :=
  Expr.ready_of h.bound h.saturated h.nodup (fun _ hp => hp) fun n hn hp => h.fresh n hp hn

theorem Matcher.Hygienic.eval_lowered {m : Matcher} (h : m.Hygienic config) {args : List Value}
    (hargs : m.arity = args.length) (locals : Locals) :
    m.lowered.eval apply (withArguments m.params args locals) =
      Matcher.select config apply locals m.name m.clauses args := by
  have hready := h.ready
  generalize m.placeholders = hidden at hready
  obtain ⟨name, ns, params, result, clauses⟩ := m
  obtain ⟨hd, hhidden, hclauses⟩ := hready
  have hagree : Agree hidden locals locals := fun _ _ => rfl
  exact Matcher.select_lowered name hclauses (showsAll_withArguments hargs hd hhidden)
    (hagree.withArguments hhidden args)

/-- The definitions are those of the matchers, each with a tree that the reducer gave. -/
def Program.ReducesTo (p : Program) (i : Interpreter) : Prop :=
  List.Forall₂ (fun m d => d.name = m.name ∧ d.params = m.params.map (·.name) ∧
    ∃ r r', m.reduce r = .ok d.body r') p.matchers i.definitions

theorem Program.ReducesTo.definition? {p : Program} {i : Interpreter} (h : p.ReducesTo i)
    (hp : ∀ m ∈ p.matchers, m.Hygienic config) (name : String) :
    (p.matchers.find? (·.name == name) = none ∧ i.definition? name = none) ∨
    ∃ m d, p.matchers.find? (·.name == name) = some m ∧ i.definition? name = some d ∧
      m.Hygienic config ∧ d.params = m.params.map (·.name) ∧ d.body = m.lowered := by
  obtain ⟨ms⟩ := p
  obtain ⟨ds⟩ := i
  rw [Interpreter.definition?]
  simp only [ReducesTo] at h hp ⊢
  induction h with
  | nil => exact .inl ⟨rfl, rfl⟩
  | @cons m d ms ds hmd _ ih =>
    obtain ⟨hname, hparams, r, r', hrun⟩ := hmd
    obtain ⟨hm, hms⟩ := List.forall_mem_cons.mp hp
    rw [List.find?_cons, List.find?_cons, hname]
    cases hn : m.name == name with
    | true =>
      rw [Matcher.reduce_run r hm.bound] at hrun
      exact .inr ⟨m, d, rfl, rfl, hm, hparams, (EStateM.Result.ok.inj hrun).1.symm⟩
    | false => exact ih hms

theorem Program.ReducesTo.apply_eq {p : Program} {i : Interpreter} (h : p.ReducesTo i)
    (hp : ∀ m ∈ p.matchers, m.Hygienic config) (depth : Nat) :
    i.apply depth = p.apply config depth := by
  -- the calls inside a body are one definition deeper, so both sides agree on them
  induction depth with
  | zero => rfl
  | succ depth ih =>
    funext name args
    rw [Interpreter.apply, Program.apply]
    rcases h.definition? hp name with ⟨hm, hd⟩ | ⟨m, d, hm, hd, hhygienic, hparams, hbody⟩
    · rw [hm, hd]
    · rw [hm, hd]
      dsimp only
      have hlen : d.params.length = m.arity := by rw [hparams, List.length_map, Matcher.arity]
      rw [hlen]
      by_cases hargs : m.arity = args.length
      · have heval : m.lowered.eval (i.apply depth) (withArguments m.params args []) =
          Matcher.select config (i.apply depth) [] m.name m.clauses args :=
          hhygienic.eval_lowered hargs []
        rw [withArguments, List.append_nil] at heval
        rw [if_pos hargs, if_pos hargs, hbody, Interpreter.parameters, hparams, heval, ih]
      · rw [if_neg hargs, if_neg hargs]

/-- The reducer succeeds on every bound program, and its trees mean what the syntax means: definitions
applied to arguments, the tree of a matcher under its arguments and any locals, and the tree of an
expression under any locals have the same outcome, at the same depth, as the first clause that takes
the arguments. -/
theorem Program.reduce_keeps_meaning {p : Program} (hp : ∀ m ∈ p.matchers, m.Hygienic config) :
    (∀ m ∈ p.matchers, ∀ r, ∃ t, m.reduce r = .ok t r) ∧
    ∀ i, p.ReducesTo i →
      (∀ depth name args, i.apply depth name args = p.apply config depth name args) ∧
      (∀ m : Matcher, m.Hygienic config → ∀ r, ∃ t, m.reduce r = .ok t r ∧
        ∀ depth args locals, m.arity = args.length →
          t.eval (i.apply depth) (withArguments m.params args locals) =
            Matcher.select config (p.apply config depth) locals m.name m.clauses args) ∧
      ∀ e : Expr, e.Hygienic config → ∀ r, ∃ t, e.lower r = .ok t r ∧
        ∀ depth locals, t.eval (i.apply depth) locals =
          e.eval config (p.apply config depth) locals := by
  refine ⟨fun m hm r => ⟨_, Matcher.reduce_run r (hp m hm).bound⟩, fun i hi => ?_⟩
  have happly := hi.apply_eq hp
  refine ⟨fun depth name args => by rw [happly], fun m hm r => ?_, fun e he r => ?_⟩
  · refine ⟨_, Matcher.reduce_run r hm.bound, fun depth args locals hargs => ?_⟩
    rw [happly]
    exact hm.eval_lowered hargs locals
  · refine ⟨_, Expr.lower_run r he.bound, fun depth locals => ?_⟩
    rw [happly]
    exact Expr.eval_lowered he.ready fun _ _ => rfl

/-- A matcher that takes the first field of a pair to a matcher inside its clause. -/
theorem reduce_keeps_meaning_nested_match :
    let inner (place : Option Place) : Matcher :=
      ⟨"inner", default, [⟨"%arg2", .constant "Int"⟩], .constant "Int",
        [⟨default, [.equal default (.literal (.int 0)) place], .literal default (.int 1)⟩,
          ⟨default, [.capture default "y" none place], .name default "y"⟩]⟩
    let outer (whole field scrutinee : Option Place) : Matcher :=
      ⟨"first", default, [⟨"%arg1", .constant "Pair"⟩], .constant "Int",
        [⟨default,
          [.tuple default "Pair" default
            [.capture default "x" none field, .ignore default] whole],
          .matching default [.name default "x"] (inner scrutinee)⟩]⟩
    let pair : Place := .argument ⟨"%arg1", .constant "Pair"⟩ (some "Pair")
    let m := outer (some pair) (some (.field pair "_0" none))
      (some (.argument ⟨"%arg2", .constant "Int"⟩ none))
    let p : Program := ⟨[m]⟩
    let i : Interpreter := ⟨[⟨"first", ["%arg1"], m.fnTy, m.lowered⟩]⟩
    let args := [Value.data "Pair" [("_0", .literal (.int 3)), ("_1", .literal (.int 4))]]
    (∀ m ∈ p.matchers, m.Hygienic {}) ∧ p.ReducesTo i ∧
      i.apply 1 "first" args = p.apply {} 1 "first" args ∧
      p.apply {} 1 "first" args = pure (.literal (.int 3)) := by
  intro inner outer pair m p i args
  have hbind : (outer none none none).bind {} = .ok m := by rfl
  have hbound : m.Bound {} := Matcher.bind_bound hbind
  have hm : m.Hygienic {} :=
    ⟨hbound, ⟨⟨by decide, rfl, ⟨trivial, trivial⟩, trivial, trivial, trivial⟩, trivial⟩, by decide,
      by decide⟩
  have hp : ∀ m ∈ p.matchers, m.Hygienic {} := fun m' hm' => by
    rw [List.mem_singleton.mp hm']
    exact hm
  have hi : p.ReducesTo i := .cons ⟨rfl, rfl, {}, {}, Matcher.reduce_run {} hbound⟩ .nil
  exact ⟨hp, hi, ((Program.reduce_keeps_meaning hp).2 i hi).1 1 "first" args, by rfl⟩

end Clausal
