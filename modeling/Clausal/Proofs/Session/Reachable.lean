import Clausal.Proofs.Typing.Soundness
import Clausal.Proofs.Unification.Assertions
import Clausal.Session

/-!
# Reachable sessions

Whatever is done with a session, and in whatever order, its substitution is one that the elementary
operations reach. This includes unifications that fail, and runs of the checker and whole compilations
that report problems or break a contract; what they did to the substitution stays. Bindings never make
a circle, and no binding is lost.
-/
namespace Clausal.Session

open Checker Substitution

/-- What was learned in a run of a checker with these reports and scopes, whether it succeeds or not. -/
def learned {α : Type} (s : Session) (check : CheckM α) (ds : List Diagnostic) (scopes : List Scope) : Session :=
  { s with subst := (leftBy (check ⟨s.env, s.config⟩ ⟨s.subst, ds, scopes⟩)).subst }

/-- One thing that can be done with a session; all types handed to it are made of variables of its
substitution. Resolving, chasing and looking for a variable change nothing and are left out. -/
inductive Action : Session → Session → Prop where
  | operate {s subst} : Operation s.subst subst → Action s { s with subst := subst }
  | configure {s config} : Action s { s with config := config }
  | declareGlobal {s name ty} : ty.Over s.subst → Action s (s.declareGlobal name ty).2
  | declareConstr {s name fields} : OverAll (fields.map Prod.snd) s.subst →
      Action s (s.declareConstr name fields)
  | declareTupleConstr {s name fields} : OverAll fields s.subst →
      Action s (leftBy (declareTupleConstr name fields s))
  | freshMatcher {s name span arity clauses} :
      Action s (s.freshMatcher name span arity clauses).2
  | infer {s e ds scopes} : OverAll e.types s.subst →
      (∀ scope ∈ scopes, OverAll (scope.map Prod.snd) s.subst) →
      Action s (s.learned (Expr.infer e) ds scopes)
  | checkPattern {s p ds scopes} : OverAll p.types s.subst →
      (∀ scope ∈ scopes, OverAll (scope.map Prod.snd) s.subst) →
      Action s (s.learned (Pattern.check p) ds scopes)
  | checkMatcher {s m ds scopes} : OverAll m.types s.subst →
      (∀ scope ∈ scopes, OverAll (scope.map Prod.snd) s.subst) →
      Action s (s.learned (Matcher.check m) ds scopes)
  | compile {s m} : OverAll m.types s.subst → Action s (leftBy (compile m s))
  | takeDiagnostics {s} : Action s s.takeDiagnostics.2

/-- What can be made of a new session. -/
def Reachable (s : Session) : Prop :=
  Relation.ReflTransGen Action {} s

/-- The substitution of the session is reachable and made the variables of all declared types. -/
structure Sound (s : Session) : Prop where
  reachable : Substitution.Reachable s.subst
  declared : s.env.Over s.subst

/-- What was done with the session left it sound, and its substitution went on by operations that spare the
kept variables. -/
structure Follows (kept : Set Nat) (s s' : Session) : Prop where
  sound : s'.Sound
  evolves : Evolves s.subst s'.subst
  spares : Spares kept s.subst s'.subst

variable {kept : Set Nat} {s s' s'' : Session} {α : Type}

theorem Follows.trans (h : Follows kept s s') (h' : Follows kept s' s'') : Follows kept s s'' :=
  ⟨h'.sound, h.evolves.trans h'.evolves, h.spares.trans h'.spares⟩

/-- Nothing was found out about types. -/
theorem Sound.follows (hs' : s'.Sound) (h : s'.subst = s.subst) : Follows kept s s' where
  sound := hs'
  evolves := h ▸ .refl
  spares := h ▸ .refl kept _

/-- Nothing was declared. -/
theorem Sound.evolve (hs : s.Sound) (h : Evolves s.subst s'.subst) (hspares : Spares kept s.subst s'.subst)
    (henv : s'.env = s.env) : Follows kept s s' where
  sound := ⟨hs.reachable.trans h, fun t ht => h.over hs.reachable.valid (hs.declared t (henv ▸ ht))⟩
  evolves := h
  spares := hspares

theorem Sound.report (hs : s.Sound) (ds : List Diagnostic) :
    Follows kept s { s with diagnostics := s.diagnostics ++ ds } :=
  Sound.follows ⟨hs.reachable, hs.declared⟩ rfl

/-! ## Declarations -/

theorem Sound.declareGlobal {name : String} {t : Ty} (hs : s.Sound) (ht : t.Over s.subst) :
    (s.declareGlobal name t).2.Sound where
  reachable := hs.reachable
  declared := by
    rintro u (⟨hu⟩ | ⟨hconstr, hu⟩)
    · change List.lookup _ ((name, t) :: s.env.globals) = some u at hu
      rw [List.lookup_cons] at hu
      split at hu
      · cases hu
        exact ht
      · exact hs.declared u (.global hu)
    · exact hs.declared u (.field hconstr hu)

theorem Sound.declareConstr {name : String} {fields : Fields} (hs : s.Sound)
    (hfields : OverAll (fields.map Prod.snd) s.subst) : (s.declareConstr name fields).Sound where
  reachable := hs.reachable
  declared := by
    rintro u (⟨hu⟩ | ⟨hconstr, hu⟩)
    · exact hs.declared u (.global hu)
    · change List.lookup _ ((name, fields) :: s.env.constrs) = some _ at hconstr
      rw [List.lookup_cons] at hconstr
      split at hconstr
      · cases hconstr
        exact hfields u (List.mem_map_of_mem hu)
      · exact hs.declared u (.field hconstr hu)

theorem nameFields_map_snd {config : Config} {ts : List Ty} {position : Nat}
    {fields : List (String × Ty)} (h : config.nameFields position ts = .ok fields) :
    fields.map Prod.snd = ts := by
  induction ts generalizing position fields with
  | nil =>
    cases h
    rfl
  | cons t ts ih =>
    rw [Config.nameFields] at h
    obtain ⟨name, -, h⟩ := exists_of_bind_eq_ok h
    obtain ⟨rest, hrest, h⟩ := exists_of_bind_eq_ok h
    cases h
    rw [List.map_cons, ih hrest]

theorem Sound.declareTupleConstr {name : String} {fields : List Ty} (hs : s.Sound)
    (hfields : OverAll fields s.subst) :
    Follows kept s (leftBy (Session.declareTupleConstr name fields s)) := by
  change Follows kept s (leftBy ((ofExcept (s.env.declareTupleConstr s.config name fields) >>= fun env =>
    set { s with env := env }) s))
  rw [Env.declareTupleConstr]
  cases hnamed : s.config.nameFields 0 fields with
  | error v => exact hs.follows rfl
  | ok named =>
    have hover : OverAll (named.map Prod.snd) s.subst := by
      rw [nameFields_map_snd hnamed]
      exact hfields
    exact (hs.declareConstr hover).follows rfl

/-! ## New matchers -/

theorem freshArguments_follows (arity : Nat) (hs : s.Sound) :
    Follows kept s (s.freshArguments arity).2 := by
  induction arity generalizing s with
  | zero => exact hs.follows rfl
  | succ n ih =>
    have hfresh : Follows kept s (s.freshTy.2.freshArgument s.freshTy.1).2 :=
      hs.evolve (.single .fresh) hs.reachable.valid.spares_fresh rfl
    exact hfresh.trans (ih hfresh.sound)

theorem Sound.freshMatcher {name : String} {span : Span} {clauses : List Clause} (hs : s.Sound)
    (arity : Nat) : Follows kept s (s.freshMatcher name span arity clauses).2 := by
  have harguments : Follows kept s (s.freshArguments arity).2 := freshArguments_follows arity hs
  have hvalid := harguments.sound.reachable.valid
  exact harguments.trans (harguments.sound.evolve (.single .fresh) hvalid.spares_fresh rfl)

/-! ## Runs of the checker -/

theorem Sound.regular {config : Config} {ds : List Diagnostic} {scopes : List Scope} (hs : s.Sound)
    (hscopes : ∀ scope ∈ scopes, OverAll (scope.map Prod.snd) s.subst) :
    Regular ⟨s.env, config⟩ ⟨s.subst, ds, scopes⟩ where
  valid := hs.reachable.valid
  below _ hi := absurd hi (Set.notMem_empty _)
  declared := hs.declared
  locals scope hscope l hl := within_empty.mpr (hscopes scope hscope l.2 (List.mem_map_of_mem hl))

theorem Sound.learned {check : CheckM α} {ds : List Diagnostic} {scopes : List Scope}
    {P : α → Substitution → Prop} {J : α → Checker → Prop} (hs : s.Sound)
    (h : Keeps ⟨s.env, s.config⟩ kept ⟨s.subst, ds, scopes⟩ check P J) :
    Follows kept s (s.learned check ds scopes) :=
  have hleads := Ends.leftBy (I := Leads kept _) h fun _ _ h => h.1
  hs.evolve hleads.evolves hleads.spares rfl

theorem ends_checkApart {check : CheckM α} {P : α → Substitution → Prop} {J : α → Checker → Prop}
    (hs : s.Sound) (h : Keeps ⟨s.env, s.config⟩ kept { subst := s.subst } check P J) :
    Ends (checkApart check) s (fun r s' => Follows kept s s' ∧ P r.1 s'.subst) (Follows kept s) := by
  rw [Keeps, Ends] at h
  rw [Ends, checkApart]
  cases hrun : check ⟨s.env, s.config⟩ { subst := s.subst } with
  | ok a c =>
    rw [hrun] at h
    exact ⟨hs.evolve h.1.evolves h.1.spares rfl, h.2.2.1⟩
  | error v c =>
    rw [hrun] at h
    exact hs.evolve h.evolves h.spares rfl

theorem ends_ofExcept (x : Except Violation α) :
    Ends (ofExcept x) s (fun a s' => x = .ok a ∧ s' = s) (· = s) := by
  cases x with
  | ok a => exact ⟨rfl, rfl⟩
  | error v => exact rfl

/-- A compilation leaves a sound session, whatever becomes of it, and spares the variables that are left in
no type of the matcher. -/
theorem Sound.compile {m : Matcher} (hs : s.Sound) (hkept : ∀ i ∈ kept, i < s.subst.size)
    (hm : WithinAll kept m.types s.subst) :
    Ends (Session.compile m) s (fun _ => Follows kept s) (Follows kept s) := by
  have htree {s₁ : Session} {x : Except Violation Tree} {f : Tree → Definition}
      (h₁ : Follows kept s s₁) :
      Ends (do return f (← ofExcept x)) s₁ (fun _ => Follows kept s) (Follows kept s) :=
    Ends.bind ((ends_ofExcept x).mono (fun _ _ h => h.2 ▸ h₁) fun _ h => h ▸ h₁) fun _ _ h => h
  -- the reports of the arity check come first and change nothing else
  have hreport : Ends (Session.report m.arityReports) s
      (fun _ s₁ => Follows kept s s₁ ∧ s₁.subst = s.subst) (Follows kept s) := ⟨hs.report _, rfl⟩
  refine hreport.bind fun _ s₁ ⟨h₁, hsubst⟩ => .bind_get ?_
  have hbind : Ends (ofExcept (m.bind s₁.config)) s₁
      (fun bound s₂ => s₂ = s₁ ∧ WithinAll kept bound.types s.subst) (Follows kept s) :=
    (ends_ofExcept _).mono (fun bound _ h => ⟨h.2, fun t ht => hm t (Matcher.types_bind h.1 ht)⟩)
      fun _ h => h ▸ h₁
  refine hbind.bind fun bound s₂ ⟨heq, hbound⟩ => ?_
  subst heq
  rw [← hsubst] at hkept hbound
  have hregular : Regular ⟨s₂.env, s₂.config⟩ { subst := s₂.subst } kept :=
    { h₁.sound.regular (List.forall_mem_nil _) with
      below := hkept
      locals := List.forall_mem_nil _ }
  have hcheck := ends_checkApart h₁.sound (Matcher.check_keeps_within bound hregular hbound)
  refine Ends.bind (hcheck.mono (fun _ _ h => h) fun _ h => h₁.trans h) fun ⟨⟨ty, checked⟩, ds⟩ s₃ h => ?_
  obtain ⟨h₂₃, hty⟩ := h
  have h₃ := h₁.trans h₂₃
  refine Ends.bind (x := Session.report ds) (P := fun _ s₄ => Follows kept s s₄ ∧ ty.Over s₄.subst)
    ⟨h₃.trans (h₃.sound.report ds), hty.known⟩ fun _ s₄ ⟨h₄, hty₄⟩ => .bind_get ?_
  split
  · refine Ends.bind (x := Session.step _) (P := fun _ => Follows kept s) ?_ fun _ _ h₅ => htree h₅
    exact h₄.trans ((h₄.sound.declareGlobal hty₄).follows rfl)
  · exact htree h₄

theorem Action.follows (h : Action s s') (hs : s.Sound) : Follows ∅ s s' := by
  have hkept : ∀ i ∈ (∅ : Set Nat), i < s.subst.size := fun i hi => absurd hi (Set.notMem_empty i)
  cases h with
  | operate hop => exact hs.evolve (.single hop) (Evolves.spares_empty (.single hop) hs.reachable.valid) rfl
  | configure => exact Sound.follows ⟨hs.reachable, hs.declared⟩ rfl
  | declareGlobal ht => exact (hs.declareGlobal ht).follows rfl
  | declareConstr hfields => exact (hs.declareConstr hfields).follows rfl
  | declareTupleConstr hfields => exact hs.declareTupleConstr hfields
  | freshMatcher => exact hs.freshMatcher _
  | infer hts hscopes =>
    exact hs.learned (Expr.infer_keeps _ (hs.regular hscopes) (withinAll_empty.mpr hts))
  | checkPattern hts hscopes =>
    exact hs.learned (Pattern.check_keeps _ (hs.regular hscopes) (withinAll_empty.mpr hts))
  | checkMatcher hts hscopes => exact hs.learned (Matcher.check_keeps _ (hs.regular hscopes) hts)
  | compile hm => exact (hs.compile hkept (withinAll_empty.mpr hm)).leftBy fun _ _ h => h
  | takeDiagnostics => exact Sound.follows ⟨hs.reachable, hs.declared⟩ rfl

/-- Whatever is done with a sound session leaves it sound, and its substitution goes on by operations. -/
theorem Sound.follows_of_actions (hs : s.Sound) (h : Relation.ReflTransGen Action s s') :
    Follows ∅ s s' := by
  induction h with
  | refl => exact hs.follows rfl
  | tail _ hop ih => exact ih.trans (hop.follows ih.sound)

theorem Reachable.sound (h : Reachable s) : s.Sound := by
  have hnew : Sound {} := by
    refine ⟨.refl, ?_⟩
    rintro t (⟨ht⟩ | ⟨hconstr, -⟩)
    · cases ht
    · cases hconstr
  exact (hnew.follows_of_actions h).sound

/-- The session after a program used a variable name for the first time. -/
theorem Reachable.var {name : String} (h : Reachable s) (hname : checkVarName name = .ok ())
    (hnew : name ∉ s.subst.names) : Reachable { s with subst := (s.subst.add name).2 } :=
  h.tail (.operate (.var (var?_of_not_mem hname hnew)))

/-- In a reachable session the bindings of classes make no circle, a class has one type at most, which
is no variable, and no unification gives a class a second type or merges classes of which one is bound. -/
theorem Reachable.bindings_orderly (h : Reachable s) : s.subst.Orderly :=
  h.sound.reachable.orderly

/-- A new session compiles a matcher whose condition is a number. -/
theorem bindings_orderly_ill_typed :
    let clause : Clause := ⟨default, [.equal default (.literal (.int 1)) none],
      .cond default (.literal default (.int 1)) (.literal default (.int 2)) (.literal default .unit)⟩
    let m := (Session.freshMatcher {} "f" default 1 [clause]).1
    let s := leftBy (compile m (Session.freshMatcher {} "f" default 1 [clause]).2)
    Reachable s ∧ s.diagnostics ≠ [] ∧ s.subst.Orderly := by
  intro clause m s
  have hover : OverAll m.types (Session.freshMatcher {} "f" default 1 [clause]).2.subst := by decide
  have hs : Reachable s := (Relation.ReflTransGen.single .freshMatcher).tail (.compile hover)
  have hreports : s.diagnostics.isEmpty = false := by decide +kernel
  refine ⟨hs, fun hnil => ?_, hs.bindings_orderly⟩
  rw [hnil] at hreports
  cases hreports

end Clausal.Session
