import Clausal.Proofs.Typing.Exact
import Clausal.Proofs.Typing.Preservation
import Clausal.Proofs.Typing.Steps
import Clausal.Proofs.Unification.Solutions

/-!
# What the steps of the checker solve

A run is given a solution of its substitution, which it does not know of. Each new variable is given the
type that is wanted in its place, each unification finds its two types equal already, and a solution that
makes them so is none that it loses. So the solution is carried to the end, and no problem with types is
reported on the way.
-/
namespace Clausal

open Substitution

/-- The variables that are left in declared types. -/
def Env.leftIn (env : Env) (s : Substitution) : Set Nat :=
  { i | ∃ u, env.Declares u ∧ i ∈ s.leftIn u }

/-- No variable is left both in the type and in a declared one. -/
def Env.Apart (env : Env) (s : Substitution) (t : Ty) : Prop :=
  ∀ u, env.Declares u → ∀ v ∈ (s.resolve t).occurrences, v ∉ (s.resolve u).occurrences

theorem Env.Apart.within {env : Env} {s : Substitution} {t : Ty} (h : env.Apart s t) (hs : s.Valid)
    (henv : env.Over s) (ht : t.Over s) : t.Within (env.leftIn s) s where
  known := ht
  avoids := fun v hv ⟨u, hu, hleft⟩ => hs.avoids_leftIn ht (henv u hu) (h u hu) v hv hleft

namespace Checker

/-- The locals in scope, with what their types stand for. -/
def scopeUnder (c : Checker) (θ : Assignment) : Scope :=
  c.scopes.flatten.map fun l => (l.1, l.2.under θ)

/-- The state is in order, and the assignment a solution of its substitution. -/
structure Solved (decls : Declarations) (kept : Set Nat) (c : Checker) (θ : Assignment) : Prop where
  regular : Regular decls c kept
  solves : c.subst.SolvedBy θ

/-- A run without type errors leads to the second state. Its solution is the first one, with types for the
variables that were made on the way. -/
structure Carries (decls : Declarations) (kept : Set Nat) (c : Checker) (θ : Assignment) (c' : Checker)
    (θ' : Assignment) : Prop where
  leads : Leads kept c c'
  solved : Solved decls kept c' θ'
  agrees : θ.AgreesBelow c.subst.size θ'
  lexical : ∃ ds, c'.diagnostics = c.diagnostics ++ ds ∧ ∀ d ∈ ds, d.isLexical = true

/-- The step has a result, to which the solution is carried, and they are as stated. -/
def Solves {α : Type} (decls : Declarations) (kept : Set Nat) (c : Checker) (θ : Assignment)
    (x : CheckM α) (P : α → Checker → Assignment → Prop) : Prop :=
  ∃ a c' θ', x decls c = .ok a c' ∧ Carries decls kept c θ c' θ' ∧ P a c' θ'

/-- The result stands for this type, and the scopes are these. -/
structure Gives (kept : Set Nat) (scopes : List Scope) (t u : Ty) (c : Checker) (θ : Assignment) : Prop where
  within : u.Within kept c.subst
  under_eq : u.under θ = t
  scopes_eq : c.scopes = scopes

variable {decls : Declarations} {kept : Set Nat} {c c' c'' : Checker} {θ θ' θ'' : Assignment}
  {α β : Type} {t u : Ty} {scopes : List Scope} {P P' : α → Checker → Assignment → Prop}
  {Q : β → Checker → Assignment → Prop}

theorem Carries.refl (h : Solved decls kept c θ) : Carries decls kept c θ c θ :=
  ⟨.refl c, h, .refl _ θ, [], (List.append_nil _).symm, List.forall_mem_nil _⟩

theorem Carries.trans (h : Carries decls kept c θ c' θ') (h' : Carries decls kept c' θ' c'' θ'') :
    Carries decls kept c θ c'' θ'' where
  leads := h.leads.trans h'.leads
  solved := h'.solved
  agrees := h.agrees.trans h.leads.evolves.size_le h'.agrees
  lexical := by
    obtain ⟨ds, hds, hlex⟩ := h.lexical
    obtain ⟨ds', hds', hlex'⟩ := h'.lexical
    exact ⟨ds ++ ds', by rw [hds', hds, List.append_assoc], List.forall_mem_append.mpr ⟨hlex, hlex'⟩⟩

theorem Carries.under_eq (h : Carries decls kept c θ c' θ') (ht : t.Over c.subst) :
    t.under θ' = t.under θ :=
  under_eq_of_agrees ht h.agrees

/-- Locals stand for the same types as long as they are in scope. -/
theorem Carries.scopeUnder_eq (h : Carries decls kept c θ c' θ') (hc : Regular decls c kept)
    (hs : c'.scopes = c.scopes) : c'.scopeUnder θ' = c.scopeUnder θ := by
  rw [scopeUnder, hs, scopeUnder]
  refine List.map_congr_left fun l hl => ?_
  obtain ⟨scope, hscope, hl⟩ := List.mem_flatten.mp hl
  rw [h.under_eq (hc.locals scope hscope l hl).known]

/-- What a type was found to stand for, it stands for later. -/
theorem Gives.later (hu : Gives kept scopes t u c θ) (h : Carries decls kept c θ c' θ') :
    u.Within kept c'.subst ∧ u.under θ' = t :=
  ⟨h.leads.within hu.within, (h.under_eq hu.within.known).trans hu.under_eq⟩

theorem solves_pure (h : Solved decls kept c θ) {a : α} (hp : P a c θ) :
    Solves decls kept c θ (pure a) P :=
  ⟨a, c, θ, rfl, .refl h, hp⟩

theorem Solves.bind {x : CheckM α} {f : α → CheckM β} (hx : Solves decls kept c θ x P)
    (hf : ∀ a c' θ', Carries decls kept c θ c' θ' → P a c' θ' → Solves decls kept c' θ' (f a) Q) :
    Solves decls kept c θ (x >>= f) Q := by
  obtain ⟨a, c', θ', hrun, hcarries, ha⟩ := hx
  obtain ⟨b, c'', θ'', hrun', hcarries', hb⟩ := hf a c' θ' hcarries ha
  refine ⟨b, c'', θ'', ?_, hcarries.trans hcarries', hb⟩
  exact (run_bind_of_eq_ok (x := x decls) (f := fun a => f a decls) hrun).trans hrun'

theorem Solves.imp {x : CheckM α} (hx : Solves decls kept c θ x P)
    (h : ∀ a c' θ', Carries decls kept c θ c' θ' → P a c' θ' → P' a c' θ') :
    Solves decls kept c θ x P' := by
  obtain ⟨a, c', θ', hrun, hcarries, ha⟩ := hx
  exact ⟨a, c', θ', hrun, hcarries, h a c' θ' hcarries ha⟩

theorem Solves.bind_read {f : Declarations → CheckM β} (hf : Solves decls kept c θ (f decls) Q) :
    Solves decls kept c θ (read >>= f) Q :=
  hf

theorem Solves.bind_get {f : Checker → CheckM β} (hf : Solves decls kept c θ (f c) Q) :
    Solves decls kept c θ (get >>= f) Q :=
  hf

/-! ## Elementary steps -/

/-- A step that reports nothing carries a solution, if there is one behind it that goes on from the first. -/
theorem Keeps.solves {x : CheckM α} {a : α} {R : α → Substitution → Prop} {J : α → Checker → Prop}
    (hx : Keeps decls kept c x R J) (hrun : x decls c = .ok a c') (hquiet : c'.diagnostics = c.diagnostics)
    (hθ' : c'.subst.SolvedBy θ') (hagrees : θ.AgreesBelow c.subst.size θ')
    (hp : R a c'.subst → J a c' → P a c' θ') : Solves decls kept c θ x P := by
  obtain ⟨hleads, hregular, hr, hj⟩ := Ends.of_ok hx hrun
  refine ⟨a, c', θ', hrun, ⟨hleads, ⟨hregular, hθ'⟩, hagrees, [], ?_, List.forall_mem_nil _⟩,
    hp hr (hj hquiet)⟩
  rw [hquiet, List.append_nil]

theorem solves_report (h : Solved decls kept c θ) {d : Diagnostic} (hd : d.isLexical = true) :
    Solves decls kept c θ (report d) fun _ c' _ => c'.scopes = c.scopes := by
  obtain ⟨hleads, hregular, -, -⟩ := Ends.of_ok (keeps_report h.regular d (.of_isLexical hd)) rfl
  exact ⟨(), _, θ, rfl, ⟨hleads, ⟨hregular, h.solves⟩, .refl _ θ, [d], rfl,
    List.forall_mem_singleton.mpr hd⟩, rfl⟩

/-- A new variable stands for any type that is asked for. -/
theorem solves_fresh (h : Solved decls kept c θ) (t : Ty) :
    Solves decls kept c θ fresh (Gives kept c.scopes t) :=
  (keeps_fresh h.regular).solves rfl rfl (h.solves.fresh h.regular.valid t)
    (Assignment.agreesBelow_update _ θ t) fun hw hs =>
      ⟨hw, under_var.trans (Function.update_self c.subst.size t θ), hs⟩

theorem solves_instantiate (h : Solved decls kept c θ) (ht : t.Over c.subst)
    (hu : c.subst.IsInstance t u) : Solves decls kept c θ (instantiate t) (Gives kept c.scopes u) := by
  obtain ⟨f, rfl⟩ := hu
  obtain ⟨θ', hagrees, hθ', hcopy⟩ := h.solves.exists_instantiate h.regular.valid t f
  exact (keeps_instantiate h.regular ht).solves rfl rfl hθ' hagrees fun hw hs => ⟨hw, hcopy, hs.1⟩

/-- Types that stand for the same are unified without a loss. -/
theorem solves_unifyAt (h : Solved decls kept c θ) (ht : t.Within kept c.subst)
    (hu : u.Within kept c.subst) (he : t.under θ = u.under θ) (s : Span) :
    Solves decls kept c θ (unifyAt t u s) (Gives kept c.scopes (t.under θ)) := by
  have hvalid := h.regular.valid
  have hrun := hvalid.unify_run hu.known ht.known
  obtain ⟨⟨x, hx, hxu⟩, hθ'⟩ := hrun.complete hvalid hu.known ht.known h.solves he.symm
  obtain ⟨hspares, hresult⟩ := hrun.spares hvalid hu ht
  have hstep : Solves decls kept c θ (onSubst (·.unify u t)) fun r c' θ' =>
      r = .unified x ∧ Gives kept c.scopes (t.under θ) x c' θ' :=
    (keeps_onSubst (P := fun _ _ => True) (J := fun r _ => r = .unified x) h.regular
      (.single (.unify hu.known ht.known)) hspares trivial hx).solves rfl rfl hθ' (.refl _ θ)
      fun _ hr => ⟨hr, hresult x hx, hxu.trans he.symm, rfl⟩
  refine hstep.bind fun r c₁ θ₁ h₁ ⟨hr, hgives⟩ => ?_
  subst hr
  exact solves_pure h₁.solved hgives

/-- The case of a type that was just found, against one that is known to stand for the same. -/
theorem Gives.solves_unifyAt {x : Ty} (hx : Gives kept scopes t x c θ) (h : Solved decls kept c θ)
    (hu : u.Within kept c.subst ∧ u.under θ = t) (s : Span) :
    Solves decls kept c θ (unifyAt u x s) (Gives kept scopes t) := by
  obtain ⟨hwithin, hunder⟩ := hu
  have hstep := Checker.solves_unifyAt h hwithin hx.within (hunder.trans hx.under_eq.symm) s
  rw [hunder, hx.scopes_eq] at hstep
  exact hstep

theorem solves_bindLocal (h : Solved decls kept c θ) (n : String) (ht : t.Within kept c.subst)
    {scope : Scope} {outer : List Scope} (hscopes : c.scopes = scope :: outer) :
    Solves decls kept c θ (bindLocal n t) fun _ c' θ' =>
      c'.scopeUnder θ' = (n, t.under θ) :: c.scopeUnder θ ∧ c'.scopes = ((n, t) :: scope) :: outer := by
  have hrun : bindLocal n t decls c = .ok () { c with scopes := ((n, t) :: scope) :: outer } := by
    obtain ⟨s, ds, scopes⟩ := c
    cases hscopes
    rfl
  refine (keeps_bindLocal h.regular n ht).solves hrun rfl h.solves (.refl _ θ) fun _ hj => ⟨?_, rfl⟩
  rw [scopeUnder, hj.2.1, List.map_cons, scopeUnder]

theorem Solved.opened (h : Solved decls kept c θ) : Solved decls kept c.opened θ :=
  ⟨h.regular.opened, h.solves⟩

theorem Carries.opened (h : Carries decls kept c θ c' θ') : Carries decls kept c θ c'.opened θ' :=
  ⟨h.leads.with_scopes _ _, h.solved.opened, h.agrees, h.lexical⟩

theorem solves_withScope {x : CheckM α}
    (hx : Solves decls kept c.opened θ x fun a c' θ' => P a c'.closed θ') :
    Solves decls kept c θ (withScope x) P := by
  obtain ⟨a, c', θ', hrun, h, hp⟩ := hx
  refine ⟨a, c'.closed, θ', ?_, ⟨h.leads.with_scopes _ _,
    ⟨h.solved.regular.closed, h.solved.solves⟩, h.agrees, h.lexical⟩, hp⟩
  change (x decls >>= fun a => (do modify closed; return a : CheckM α) decls) c.opened = _
  rw [run_bind_of_eq_ok hrun]
  rfl

/-! ## Names and places -/

/-- Where checking begins: the variables left in declared types are kept, so signatures have the
instances that they have here to the end. -/
structure Begins (decls : Declarations) (kept : Set Nat) (c : Checker) : Prop where
  regular : Regular decls c kept
  declared : decls.env.leftIn c.subst ⊆ kept

variable {c₀ : Checker} {θ₀ : Assignment} {n : String} {Γ : Scope}

theorem Begins.isInstance (h₀ : Begins decls kept c₀) (h : Carries decls kept c₀ θ₀ c θ)
    (hdeclares : decls.env.Declares t) (ht : c₀.subst.IsInstance t u) : c.subst.IsInstance t u := by
  obtain ⟨f, rfl⟩ := ht
  refine ⟨f, ?_⟩
  rw [h.leads.spares.resolve_eq h.leads.evolves h₀.regular.valid (h₀.regular.declared t hdeclares)
    fun v hv => h₀.declared ⟨t, hdeclares, v, hv, rfl⟩]

theorem solves_declared (h₀ : Begins decls kept c₀) (h : Carries decls kept c₀ θ₀ c θ)
    (hdeclares : decls.env.Declares t) (ht : c₀.subst.IsInstance t u) :
    Solves decls kept c θ (instantiate t) (Gives kept c.scopes u) :=
  solves_instantiate h.solved (h.solved.regular.declared t hdeclares) (h₀.isInstance h hdeclares ht)

/-- The type of a field that is declared is an instance of its signature; another field has any type. -/
theorem solves_instantiateOrFresh (h₀ : Begins decls kept c₀) (h : Carries decls kept c₀ θ₀ c θ)
    {ty? : Option Ty} (hty : ∀ u ∈ ty?, decls.env.Declares u ∧ c₀.subst.IsInstance u t) :
    Solves decls kept c θ (instantiateOrFresh ty?) (Gives kept c.scopes t) := by
  cases ty? with
  | none => exact solves_fresh h.solved t
  | some u =>
    obtain ⟨hdeclares, hinst⟩ := hty u rfl
    exact solves_declared h₀ h hdeclares hinst

theorem lookup_scopeUnder : (c.scopeUnder θ).lookup n =
    (c.scopes.findSome? (·.lookup n)).map fun t => t.under θ := by
  rw [← lookup_flatten, scopeUnder]
  induction c.scopes.flatten with
  | nil => rfl
  | cons l locals ih =>
    rw [List.map_cons, List.lookup_cons, List.lookup_cons, ih]
    cases n == l.1 <;> rfl

theorem solves_lookup? (h₀ : Begins decls kept c₀) (h : Carries decls kept c₀ θ₀ c θ)
    (hn : NameHas decls (c.scopeUnder θ) c₀.subst n t) :
    Solves decls kept c θ (lookup? n) fun r c' θ' =>
      ∃ u, r = some u ∧ Gives kept c.scopes t u c' θ' := by
  refine .bind_get ?_
  cases hn with
  | «local» hlocal =>
    rw [lookup_scopeUnder] at hlocal
    obtain ⟨u, hu, rfl⟩ := Option.map_eq_some_iff.mp hlocal
    obtain ⟨scope, hscope, hl⟩ := List.exists_of_findSome?_eq_some hu
    rw [hu]
    exact solves_pure h.solved
      ⟨u, rfl, h.solved.regular.locals scope hscope (n, u) (mem_of_lookup hl), rfl, rfl⟩
  | global hlocal hglobal hinst =>
    rw [lookup_scopeUnder, Option.map_eq_none_iff] at hlocal
    rw [hlocal]
    refine .bind_read ?_
    rw [hglobal]
    refine (solves_declared h₀ h (.global hglobal) hinst).bind fun u c₁ θ₁ h₁ hu => ?_
    exact solves_pure h₁.solved ⟨u, rfl, hu⟩

/-- A name that has a type is known, so nothing is done in its place. -/
theorem solves_lookup (h₀ : Begins decls kept c₀) (h : Carries decls kept c₀ θ₀ c θ)
    (hn : NameHas decls (c.scopeUnder θ) c₀.subst n t) (s : Span) (x : CheckM Ty) :
    Solves decls kept c θ (do
      match ← lookup? n with
      | some ty => return ty
      | none => do
        report (.symbolNotFound n s)
        x) (Gives kept c.scopes t) := by
  refine (solves_lookup? h₀ h hn).bind fun r c₁ θ₁ h₁ ⟨u, hr, hu⟩ => ?_
  subst hr
  exact solves_pure h₁.solved hu

theorem solves_typeOfPlace (h₀ : Begins decls kept c₀) (h : Carries decls kept c₀ θ₀ c θ) {place : Place}
    (hplace : place.root.ty.Within kept c₀.subst) (ht : Exact.PlaceHas decls c₀.subst θ₀ place t) :
    Solves decls kept c θ (typeOfPlace place) (Gives kept c.scopes t) := by
  cases ht with
  | argument => exact solves_pure h.solved ⟨h.leads.within hplace, h.under_eq hplace.known, rfl⟩
  | field hfield hinst =>
    refine .bind_read (solves_instantiateOrFresh h₀ h fun u hu => ?_)
    rw [hfield] at hu
    cases hu
    obtain ⟨constr, -, hdeclared⟩ := Option.bind_eq_some_iff.mp hfield
    exact ⟨.of_field? hdeclared, hinst⟩
  | openField hnone =>
    refine .bind_read (solves_instantiateOrFresh h₀ h fun u hu => ?_)
    rw [hnone] at hu
    cases hu

end Checker
end Clausal
