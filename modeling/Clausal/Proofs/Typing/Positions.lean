import Clausal.Proofs.Typing.Reports

/-!
# Fields by position and fields by name

A pattern with fields by position stands for the one that names them. Both are bound to the same
places, and the checker finds the same types, the same substitution and the same locals for both. Its
reports differ: a field by position is looked up by the name that its pattern projects, and a pattern
that ignores its value projects none. So the pattern with names has all the reports of the one without,
in their order, and between them one for each ignored position that a declared constructor lacks.
-/
namespace Clausal

open Checker

namespace Pattern

section

variable (config : Config)

mutual

/-- The pattern with the fields by position under their names. The source text of a name is that of
its pattern. -/
def named : Pattern → Pattern
  | .ignore s => .ignore s
  | .capture s n t place => .capture s n t place
  | .equal s e place => .equal s e place
  | .record s c cs fields place => .record s c cs (namedFields fields) place
  | .tuple s c cs fields place => .record s c cs (namedPositions 0 fields) place
  | .group s members => .group s members

/-- The named fields with the fields by position below them under their names. -/
def namedFields : List FieldPattern → List FieldPattern
  | [] => []
  | ⟨n, ns, p⟩ :: fs => ⟨n, ns, named p⟩ :: namedFields fs

/-- The patterns under the names of the fields from the given position on. -/
def namedPositions : Nat → List Pattern → List FieldPattern
  | _, [] => []
  | position, p :: ps =>
    ⟨config.fieldName position, p.span, named p⟩ :: namedPositions (position + 1) ps

end

/-- The report on a field that is lacking, where its value is ignored. -/
def ignored (name : String) (declared : Option Fields) : Pattern → List Diagnostic
  | .ignore s => lacking name s declared
  | _ => []

variable (env : Env)

mutual

/-- The reports on ignored positions that a declared constructor lacks. -/
def overlooked : Pattern → List Diagnostic
  | .ignore _ => []
  | .capture _ _ _ _ => []
  | .equal _ _ _ => []
  | .record _ _ _ fields _ => overlookedFields fields
  | .tuple _ c _ fields _ => overlookedPositions (env.constr? c) 0 fields
  | .group _ _ => []

/-- The reports on ignored positions below named fields. -/
def overlookedFields : List FieldPattern → List Diagnostic
  | [] => []
  | ⟨_, _, p⟩ :: fs => overlooked p ++ overlookedFields fs

/-- The reports on ignored positions from the given one on, and on those below. -/
def overlookedPositions (declared : Option Fields) : Nat → List Pattern → List Diagnostic
  | _, [] => []
  | position, p :: ps => ignored (config.fieldName position) declared p ++
    (overlooked p ++ overlookedPositions declared (position + 1) ps)

end

end

/-! ## Binding -/

variable {config : Config}

theorem Binds.span {p q : Pattern} {place : Place} (h : p.Binds config place q) : q.span = p.span := by
  cases h <;> rfl

mutual

/-- What stands for a bound pattern is what stands for the pattern, bound to the same place. -/
theorem Binds.named : ∀ {p q : Pattern} {place : Place}, p.Binds config place q →
    (p.named config).bind config place = .ok (q.named config)
  | _, _, _, .ignore => rfl
  | _, _, _, .capture => rfl
  | _, _, _, .equal => rfl
  | _, _, _, .record h => by
    rw [Pattern.named, Pattern.named, Pattern.bind, h.named]
    rfl
  | _, _, _, .tuple h => by
    rw [Pattern.named, Pattern.named, Pattern.bind, h.named]
    rfl

theorem FieldsBind.named : ∀ {fs gs : List FieldPattern} {parent : Place},
    FieldsBind config parent fs gs →
      bindFields config parent (namedFields config fs) = .ok (namedFields config gs)
  | _, _, _, .nil => rfl
  | _, _, _, .cons hp hfs => by
    rw [namedFields, namedFields, bindFields, hp.named, hfs.named]
    rfl

theorem PositionsBind.named : ∀ {ps qs : List Pattern} {parent : Place} {position : Nat},
    PositionsBind config parent position ps qs →
      bindFields config parent (namedPositions config position ps) =
        .ok (namedPositions config position qs)
  | _, _, _, _, .nil => rfl
  | _, _, _, _, .cons hname hp hps => by
    rw [namedPositions, namedPositions, bindFields, ← Config.eq_fieldName hname, hp.named, hps.named,
      hp.span]
    rfl

end

end Pattern

/-! ## Runs that differ in their reports -/

/-- The last list has the members of the other two, and those of each in their order. -/
inductive Interleaved {α : Type} : List α → List α → List α → Prop where
  | nil : Interleaved [] [] []
  | left {a l r all} : Interleaved l r all → Interleaved (a :: l) r (a :: all)
  | right {a l r all} : Interleaved l r all → Interleaved l (a :: r) (a :: all)

namespace Interleaved

variable {α : Type} {l l' r r' all all' : List α}

theorem append (h : Interleaved l r all) (h' : Interleaved l' r' all') :
    Interleaved (l ++ l') (r ++ r') (all ++ all') := by
  induction h with
  | nil => exact h'
  | left _ ih => exact .left ih
  | right _ ih => exact .right ih

theorem length_eq (h : Interleaved l r all) : all.length = l.length + r.length := by
  induction h with
  | nil => rfl
  | left _ ih => simp only [List.length_cons, ih]; omega
  | right _ ih => simp only [List.length_cons, ih]; omega

theorem eq_iff (h : Interleaved l r all) : all = l ↔ r = [] := by
  constructor
  · rintro rfl
    have hlen := h.length_eq
    rw [← List.length_eq_zero_iff]
    omega
  · rintro rfl
    generalize hr : ([] : List α) = r at h
    induction h with
    | nil => rfl
    | left _ ih => rw [ih hr]
    | right => cases hr

end Interleaved

namespace Checker

/-- Both know the same, whatever they have reported. -/
structure Abreast (c c' : Checker) : Prop where
  subst_eq : c'.subst = c.subst
  scopes_eq : c'.scopes = c.scopes

/-- Two runs end alike: with results in relation or with the same violation, and knowing the same.
Where they succeed, the second has added to its reports those that the first added to its own, and the
given ones in between. -/
def Echoes {α β : Type} (R : α → β → Prop) (late : List Diagnostic) (c c' : Checker) :
    EStateM.Result Violation Checker α → EStateM.Result Violation Checker β → Prop
  | .ok a c₁, .ok b c₁' => R a b ∧ Abreast c₁ c₁' ∧ ∃ ds ds', c₁.diagnostics = c.diagnostics ++ ds ∧
      c₁'.diagnostics = c'.diagnostics ++ ds' ∧ Interleaved ds late ds'
  | .error v c₁, .error v' c₁' => v' = v ∧ Abreast c₁ c₁'
  | _, _ => False

/-- The second step does what the first does, and adds the given reports. -/
def Echo {α β : Type} (decls : Declarations) (R : α → β → Prop) (late : List Diagnostic)
    (x : CheckM α) (y : CheckM β) : Prop :=
  ∀ c c', Abreast c c' → Echoes R late c c' (x decls c) (y decls c')

variable {decls : Declarations} {α β γ δ : Type} {R : α → β → Prop} {S : γ → δ → Prop}
  {late late' : List Diagnostic} {x : CheckM α} {y : CheckM β} {f : α → CheckM γ} {g : β → CheckM δ}

theorem echo_pure {a : α} {b : β} (h : R a b) : Echo decls R [] (pure a) (pure b) :=
  fun _ _ hc => ⟨h, hc, [], [], (List.append_nil _).symm, (List.append_nil _).symm, .nil⟩

theorem echo_throw (v : Violation) : Echo decls R late (throw v) (throw v) :=
  fun _ _ hc => ⟨rfl, hc⟩

/-- A run that goes on where two others ended has their reports before its own. -/
theorem Echoes.after {c c' c₁ c₁' : Checker} {ds ds' : List Diagnostic}
    {r : EStateM.Result Violation Checker γ} {r' : EStateM.Result Violation Checker δ}
    (hd : c₁.diagnostics = c.diagnostics ++ ds) (hd' : c₁'.diagnostics = c'.diagnostics ++ ds')
    (hds : Interleaved ds late ds') (h : Echoes S late' c₁ c₁' r r') :
    Echoes S (late ++ late') c c' r r' := by
  cases r with
  | error v c₂ =>
    cases r' with
    | error v' c₂' => exact h
    | ok b c₂' => cases h
  | ok a c₂ =>
    cases r' with
    | error v' c₂' => cases h
    | ok b c₂' =>
      obtain ⟨hab, hc, es, es', he, he', hes⟩ := h
      refine ⟨hab, hc, ds ++ es, ds' ++ es', ?_, ?_, hds.append hes⟩
      · rw [he, hd, List.append_assoc]
      · rw [he', hd', List.append_assoc]

theorem Echoes.imp {R' : α → β → Prop} {c c' : Checker} {r : EStateM.Result Violation Checker α}
    {r' : EStateM.Result Violation Checker β} (h : Echoes R late c c' r r')
    (hR : ∀ a b, R a b → R' a b) : Echoes R' late c c' r r' := by
  cases r with
  | error v c₁ =>
    cases r' with
    | error v' c₁' => exact h
    | ok b c₁' => cases h
  | ok a c₁ =>
    cases r' with
    | error v' c₁' => cases h
    | ok b c₁' => exact ⟨hR a b h.1, h.2⟩

theorem Echo.bind (hx : Echo decls R late x y)
    (hf : ∀ a b, R a b → Echo decls S late' (f a) (g b)) :
    Echo decls S (late ++ late') (x >>= f) (y >>= g) := by
  intro c c' hc
  have hrun := hx c c' hc
  change Echoes S _ c c' (EStateM.bind (x decls) (fun a => f a decls) c)
    (EStateM.bind (y decls) (fun b => g b decls) c')
  rw [EStateM.bind, EStateM.bind]
  cases hr : x decls c with
  | error v c₁ =>
    cases hr' : y decls c' with
    | error v' c₁' =>
      rw [hr, hr'] at hrun
      exact hrun
    | ok b c₁' =>
      rw [hr, hr'] at hrun
      cases hrun
  | ok a c₁ =>
    cases hr' : y decls c' with
    | error v' c₁' =>
      rw [hr, hr'] at hrun
      cases hrun
    | ok b c₁' =>
      rw [hr, hr'] at hrun
      obtain ⟨hab, hc₁, ds, ds', hd, hd', hds⟩ := hrun
      exact (hf a b hab c₁ c₁' hc₁).after hd hd' hds

/-- A step that is the same in both runs. -/
theorem Echo.bind_same {x : CheckM α} {f : α → CheckM γ} {g : α → CheckM δ}
    (hx : Echo decls Eq [] x x) (hf : ∀ a, Echo decls S late (f a) (g a)) :
    Echo decls S late (x >>= f) (x >>= g) :=
  hx.bind fun a _ hab => hab ▸ hf a

/-- A step that only the second run makes. -/
theorem Echo.bind_right {step : CheckM Unit} (hstep : Echo decls Eq late (pure ()) step)
    (h : Echo decls R late' x y) : Echo decls R (late ++ late') x (step >>= fun _ => y) :=
  Echo.bind (f := fun _ => x) hstep fun _ _ _ => h

/-- A step after which the second run reports nothing of its own. -/
theorem Echo.bind_last (hx : Echo decls R late x y)
    (hf : ∀ a b, R a b → Echo decls S [] (f a) (g b)) : Echo decls S late (x >>= f) (y >>= g) := by
  rw [← List.append_nil late]
  exact hx.bind hf

theorem Echo.bind_get {f : Checker → CheckM γ} {g : Checker → CheckM δ}
    (h : ∀ c c', Abreast c c' → Echo decls S late (f c) (g c')) :
    Echo decls S late (get >>= f) (get >>= g) :=
  fun c c' hc => h c c' hc c c' hc

theorem Echo.bind_read {f : Declarations → CheckM γ} {g : Declarations → CheckM δ}
    (h : Echo decls S late (f decls) (g decls)) : Echo decls S late (read >>= f) (read >>= g) :=
  h

theorem echo_onSubst (f : Substitution → α × Substitution) :
    Echo decls Eq [] (onSubst f) (onSubst f) := by
  rintro ⟨s, ds, scopes⟩ ⟨s', ds', scopes'⟩ ⟨hs, hscopes⟩
  cases hs
  cases hscopes
  exact ⟨rfl, ⟨rfl, rfl⟩, [], [], (List.append_nil _).symm, (List.append_nil _).symm, .nil⟩

theorem echo_fresh : Echo decls Eq [] fresh fresh :=
  echo_onSubst _

theorem echo_instantiate (t : Ty) : Echo decls Eq [] (instantiate t) (instantiate t) :=
  echo_onSubst _

theorem echo_instantiateOrFresh (t : Option Ty) :
    Echo decls Eq [] (instantiateOrFresh t) (instantiateOrFresh t) := by
  cases t with
  | none => exact echo_fresh
  | some t => exact echo_instantiate t

theorem echo_report (d : Diagnostic) : Echo decls Eq [] (report d) (report d) :=
  fun _ _ hc => ⟨rfl, ⟨hc.subst_eq, hc.scopes_eq⟩, [d], [d], rfl, rfl, .left .nil⟩

/-- A report that only the second run makes. -/
theorem echo_late (d : Diagnostic) : Echo decls Eq [d] (pure ()) (report d) :=
  fun _ _ hc => ⟨rfl, ⟨hc.subst_eq, hc.scopes_eq⟩, [], [d], (List.append_nil _).symm, rfl,
    .right .nil⟩

theorem echo_unifyAt (expected actual : Ty) (span : Span) :
    Echo decls Eq [] (unifyAt expected actual span) (unifyAt expected actual span) := by
  refine (echo_onSubst _).bind_same fun result => ?_
  cases result with
  | unified t => exact echo_pure rfl
  | mismatch e a =>
    refine Echo.bind_get fun c c' hc => ?_
    rw [hc.subst_eq]
    exact (echo_report _).bind_same fun _ => echo_pure rfl
  | circular t v =>
    refine Echo.bind_get fun c c' hc => ?_
    rw [hc.subst_eq]
    exact (echo_report _).bind_same fun _ => echo_pure rfl

theorem echo_bindLocal (n : String) (t : Ty) : Echo decls Eq [] (bindLocal n t) (bindLocal n t) := by
  rintro ⟨s, ds, scopes⟩ ⟨s', ds', scopes'⟩ ⟨hs, hscopes⟩
  cases hs
  cases hscopes
  cases scopes with
  | nil => exact ⟨rfl, rfl, rfl⟩
  | cons scope outer =>
    exact ⟨rfl, ⟨rfl, rfl⟩, [], [], (List.append_nil _).symm, (List.append_nil _).symm, .nil⟩

theorem echo_lookup? (n : String) : Echo decls Eq [] (lookup? n) (lookup? n) := by
  refine Echo.bind_get fun c c' hc => ?_
  rw [hc.scopes_eq]
  cases c.scopes.findSome? (·.lookup n) with
  | some t => exact echo_pure rfl
  | none =>
    refine Echo.bind_read ?_
    cases decls.env.global? n with
    | some t => exact (echo_instantiate t).bind_same fun _ => echo_pure rfl
    | none => exact echo_pure rfl

theorem echo_typeOfPlace (place : Place) :
    Echo decls Eq [] (typeOfPlace place) (typeOfPlace place) := by
  cases place with
  | argument arg tag => exact echo_pure rfl
  | field parent name tag => exact Echo.bind_read (echo_instantiateOrFresh _)

end Checker

/-! ## Checking -/

namespace Pattern

variable {config : Config} {decls : Declarations}

theorem echo_ofBound (place : Option Place) :
    Echo decls Eq [] (Place.ofBound place) (Place.ofBound place) := by
  cases place with
  | none => exact echo_throw _
  | some place => exact echo_pure rfl

theorem declaredFields_echo (constr : String) (s : Span) :
    Echo decls (fun a b => a = decls.env.constr? constr ∧ b = decls.env.constr? constr) []
      (declaredFields constr s) (declaredFields constr s) := by
  refine Echo.bind_read (Echo.bind_read ?_)
  dsimp only
  by_cases h : ((decls.env.constr? constr).isNone && decls.config.reportUndeclaredConstrs) = true
  · rw [if_pos h]
    exact (echo_report _).bind_same fun _ => echo_pure ⟨rfl, rfl⟩
  · rw [if_neg h]
    exact echo_pure ⟨rfl, rfl⟩

theorem checkField_echo (declared : Option Fields) (n : String) (s : Span) :
    Echo decls Eq [] (checkField declared n s) (checkField declared n s) := by
  cases declared with
  | none => exact echo_pure rfl
  | some fields =>
    rw [checkField]
    by_cases h : (fields.lookup n).isNone = true
    · rw [if_pos h]
      exact echo_report _
    · rw [if_neg h]
      exact echo_pure rfl

/-- Looking up a field where it was not looked up. -/
theorem checkField_late (declared : Option Fields) (n : String) (s : Span) :
    Echo decls Eq (lacking n s declared) (pure ()) (checkField declared n s) := by
  cases declared with
  | none => exact echo_pure rfl
  | some fields =>
    rw [checkField, lacking]
    by_cases h : (fields.lookup n).isNone = true
    · rw [if_pos h, if_pos h]
      exact echo_late _
    · rw [if_neg h, if_neg h]
      exact echo_pure rfl

theorem unifyTuple_echo (t : Ty) (ts : List Ty) (s : Span) :
    Echo decls Eq [] (unifyTuple t ts s) (unifyTuple t ts s) :=
  Echo.bind_read (echo_unifyAt _ _ _)

theorem expectedTy_echo (t : Ty) (s : Span) (e : Expected) :
    Echo decls Eq [] (expectedTy t s e) (expectedTy t s e) := by
  cases e with
  | literal l => exact echo_pure rfl
  | name n =>
    refine (echo_lookup? n).bind_same fun r => ?_
    cases r with
    | some ty => exact echo_pure rfl
    | none => exact (echo_report _).bind_same fun _ => echo_pure rfl

/-- A bound pattern projects the field of its place, unless it ignores its value. -/
theorem BoundAt.projects {p : Pattern} {parent : Place} {n : String}
    (h : p.BoundAt config (parent.access n)) (declared : Option Fields) :
    (∃ s, p = .ignore s) ∨
      p.place?.bind Place.fieldName? = some n ∧ ignored n declared p = [] := by
  cases p with
  | ignore s => exact .inl ⟨s, rfl⟩
  | capture s m t place =>
    cases h
    exact .inr ⟨rfl, rfl⟩
  | equal s e place =>
    cases h
    exact .inr ⟨rfl, rfl⟩
  | record s c cs fields place =>
    cases h.1
    exact .inr ⟨rfl, rfl⟩
  | tuple s c cs fields place =>
    cases h.1
    exact .inr ⟨rfl, rfl⟩
  | group s members => cases h

mutual

theorem check_echo : ∀ {p : Pattern} {place : Place}, p.BoundAt config place →
    Echo decls (fun a b => b = (a.1, a.2.named config) ∧ a.2.span = p.span)
      (p.overlooked config decls.env) p.check (p.named config).check
  | .ignore s, _, _ => echo_fresh.bind_same fun _ => echo_pure ⟨rfl, rfl⟩
  | .capture s n annotation place, _, _ => by
    rw [named, check]
    refine (echo_ofBound place).bind_same fun p => (echo_typeOfPlace p).bind_same fun valueTy => ?_
    have hrest (declared : Ty) : Echo decls
        (fun a b => b = (a.1, a.2.named config) ∧ a.2.span = s) [] (do
          let ty ← unifyAt valueTy declared s
          bindLocal n ty
          return (ty, capture s n (some ty) place)) (do
          let ty ← unifyAt valueTy declared s
          bindLocal n ty
          return (ty, capture s n (some ty) place)) :=
      (echo_unifyAt valueTy declared s).bind_same fun ty =>
        (echo_bindLocal n ty).bind_same fun _ => echo_pure ⟨rfl, rfl⟩
    cases annotation with
    | some t => exact (echo_pure rfl).bind_same hrest
    | none => exact echo_fresh.bind_same hrest
  | .equal s e place, _, _ => by
    rw [named, check]
    refine (echo_ofBound place).bind_same fun p => (echo_typeOfPlace p).bind_same fun valueTy => ?_
    refine (expectedTy_echo valueTy s e).bind_same fun expected => ?_
    exact (echo_unifyAt valueTy expected s).bind_same fun ty => echo_pure ⟨rfl, rfl⟩
  | .record s constr cs fields place, _, ⟨_, h⟩ => by
    rw [named, check, check, overlooked]
    refine (echo_ofBound place).bind_same fun p => (echo_typeOfPlace p).bind_same fun valueTy => ?_
    refine (declaredFields_echo constr cs).bind fun declared declared' hd => ?_
    obtain ⟨rfl, rfl⟩ := hd
    refine (checkFields_echo h _).bind_last fun a b hab => ?_
    obtain rfl := hab
    exact (unifyTuple_echo valueTy a.1 s).bind_same fun ty => echo_pure ⟨rfl, rfl⟩
  | .tuple s constr cs fields place, _, ⟨_, h⟩ => by
    rw [named, check, check, overlooked]
    refine (echo_ofBound place).bind_same fun p => (echo_typeOfPlace p).bind_same fun valueTy => ?_
    refine (declaredFields_echo constr cs).bind fun declared declared' hd => ?_
    obtain ⟨rfl, rfl⟩ := hd
    refine (checkPositions_echo h _).bind_last fun a b hab => ?_
    obtain rfl := hab
    exact (unifyTuple_echo valueTy a.1 s).bind_same fun ty => echo_pure ⟨rfl, rfl⟩

theorem checkFields_echo : ∀ {fs : List FieldPattern} {parent : Place},
    FieldsBoundAt config parent fs → ∀ declared : Option Fields,
      Echo decls (fun a b => b = (a.1, namedFields config a.2))
        (overlookedFields config decls.env fs) (checkFields declared fs)
        (checkFields declared (namedFields config fs))
  | [], _, _, _ => echo_pure rfl
  | ⟨n, ns, p⟩ :: fs, _, ⟨hp, hfs⟩, declared => by
    rw [namedFields, checkFields, checkFields, overlookedFields]
    refine (checkField_echo declared n ns).bind_same fun _ => ?_
    refine (check_echo hp).bind fun a b hab => ?_
    obtain ⟨rfl, -⟩ := hab
    refine (checkFields_echo hfs declared).bind_last fun as bs habs => ?_
    obtain rfl := habs
    exact echo_pure rfl

theorem checkPositions_echo : ∀ {ps : List Pattern} {parent : Place} {position : Nat},
    PositionsBoundAt config parent position ps → ∀ declared : Option Fields,
      Echo decls (fun a b => b = (a.1, namedPositions config position a.2))
        (overlookedPositions config decls.env declared position ps) (checkPositions declared ps)
        (checkFields declared (namedPositions config position ps))
  | [], _, _, _, _ => echo_pure rfl
  | p :: ps, _, position, ⟨hp, hps⟩, declared => by
    rw [namedPositions, checkPositions, checkFields, overlookedPositions]
    have hrest : Echo decls (fun a b => b = (a.1, namedPositions config position a.2))
        (overlooked config decls.env p ++
          overlookedPositions config decls.env declared (position + 1) ps) (do
          let (ty, q) ← check p
          let (tys, qs) ← checkPositions declared ps
          return (ty :: tys, q :: qs)) (do
          let (ty, q) ← check (p.named config)
          let (tys, fs) ← checkFields declared (namedPositions config (position + 1) ps)
          return (ty :: tys, ⟨config.fieldName position, p.span, q⟩ :: fs)) := by
      refine (check_echo hp).bind fun a b hab => ?_
      obtain ⟨rfl, hspan⟩ := hab
      refine (checkPositions_echo hps declared).bind_last fun as bs habs => ?_
      obtain rfl := habs
      refine echo_pure ?_
      rw [namedPositions, hspan]
    -- only where the value is ignored does the name make a difference: then it alone is looked up
    rcases hp.projects declared with ⟨s, rfl⟩ | ⟨hproject, hignored⟩
    · exact (checkField_late declared _ s).bind_right hrest
    · rw [hproject, hignored]
      exact (checkField_echo declared _ _).bind_same fun _ => hrest

end

/-- A pattern that can be bound, and the one that names its fields by position: they are bound to the
same places, and checks of them from the same state find the same types, substitution and locals, or
break the same contract. The one with names has the same reports and those on ignored positions that a
declared constructor lacks. So the reports are the same exactly if there is no such position. -/
theorem check_named {p q : Pattern} {place : Place} (h : p.bind config place = .ok q)
    (decls : Declarations) (c : Checker) :
    (p.named config).bind config place = .ok (q.named config) ∧
      Echoes (fun a b => b = (a.1, a.2.named config)) (q.overlooked config decls.env) c c
        (q.check decls c) ((q.named config).check decls c) ∧
      ∀ a b c₁ c₁', q.check decls c = .ok a c₁ → (q.named config).check decls c = .ok b c₁' →
        (c₁'.diagnostics = c₁.diagnostics ↔ q.overlooked config decls.env = []) := by
  have hecho : Echoes _ (q.overlooked config decls.env) c c (q.check decls c)
      ((q.named config).check decls c) := check_echo (binds_of_bind h).boundAt c c ⟨rfl, rfl⟩
  refine ⟨(binds_of_bind h).named, hecho.imp fun a b hab => hab.1, fun a b c₁ c₁' ha hb => ?_⟩
  rw [ha, hb] at hecho
  obtain ⟨-, -, ds, ds', hds, hds', hall⟩ := hecho
  rw [hds, hds', List.append_cancel_left_eq]
  exact hall.eq_iff

/-- A pair that is declared with its first field only, and a pattern that ignores the second one. The
pattern with names has a report on that field, and the one without has none. -/
theorem check_named_ignored_position :
    let decls : Declarations := ⟨{ constrs := [("Pair", [("_0", .constant "Int")])] }, {}⟩
    let c : Checker := ⟨(Substitution.fresh {}).2, [], [[]]⟩
    let place : Place := .ofArgument ⟨"%arg1", (Substitution.fresh {}).1⟩
    let p := Pattern.tuple default "Pair" default [.capture ⟨3, 4⟩ "x" none none, .ignore ⟨5, 6⟩] none
    ∃ q, p.bind {} place = .ok q ∧ (p.named {}).bind {} place = .ok (q.named {}) ∧
      Echoes (fun a b => b = (a.1, a.2.named {})) [.symbolNotFound "_1" ⟨5, 6⟩] c c
        (q.check decls c) ((q.named {}).check decls c) ∧
      (leftBy (q.check decls c)).diagnostics = [] ∧
      (leftBy ((q.named {}).check decls c)).diagnostics = [.symbolNotFound "_1" ⟨5, 6⟩] := by
  intro decls c place p
  obtain ⟨q, hq⟩ : ∃ q, p.bind {} place = .ok q := ⟨_, rfl⟩
  have hlate : q.overlooked {} decls.env = [.symbolNotFound "_1" ⟨5, 6⟩] := by
    cases hq
    rfl
  obtain ⟨hbind, hecho, -⟩ := check_named hq decls c
  rw [hlate] at hecho
  refine ⟨q, hq, hbind, hecho, ?_, ?_⟩
  · cases hq
    rfl
  · cases hq
    rfl

end Pattern
end Clausal
