import Clausal.Proofs.Control
import Clausal.Proofs.Pattern.Steps
import Clausal.Proofs.Typing.Diagnostics
import Clausal.Proofs.Typing.Rules
import Clausal.Proofs.Unification.Isolation

/-!
# What the steps of the checker keep and learn

A run of the checker changes the substitution only by the operations of `Evolves`, and hands them only
types whose variables the substitution has made, if it was given such types. If no class of a given
set is left in these types when they are resolved, the run leaves the set alone; declared types may be
made of anything, since each use gets its own copy. This holds of runs that report problems, and of those
that break a contract, up to where they do. Of a run that reports nothing more can be said: what it was
to find out is so.
-/
namespace Clausal

open Substitution

/-- The type is declared for a global, or for a field of a constructor. -/
inductive Env.Declares (env : Env) : Ty → Prop where
  | global {n t} : env.global? n = some t → env.Declares t
  | field {constr fields f t} : env.constr? constr = some fields → (f, t) ∈ fields → env.Declares t

theorem Env.Declares.of_field? {env : Env} {constr f : String} {t : Ty}
    (h : env.field? constr f = some t) : env.Declares t := by
  obtain ⟨fields, hconstr, hf⟩ := Option.bind_eq_some_iff.mp h
  exact .field hconstr (mem_of_lookup hf)

/-- The substitution made the variables of all declared types. -/
def Env.Over (env : Env) (s : Substitution) : Prop :=
  ∀ t, env.Declares t → t.Over s

/-- The substitution made the variables of all these types. -/
def OverAll (ts : List Ty) (s : Substitution) : Prop :=
  ∀ t ∈ ts, t.Over s

instance (ts : List Ty) (s : Substitution) : Decidable (OverAll ts s) :=
  inferInstanceAs (Decidable (∀ t ∈ ts, t.Over s))

/-- The substitution made the variables of all these types, and none of those kept is left in them. -/
def WithinAll (kept : Set Nat) (ts : List Ty) (s : Substitution) : Prop :=
  ∀ t ∈ ts, t.Within kept s

section

variable {kept : Set Nat} {s : Substitution} {t : Ty} {l l' : List Ty}

theorem withinAll_append : WithinAll kept (l ++ l') s ↔ WithinAll kept l s ∧ WithinAll kept l' s :=
  List.forall_mem_append

theorem withinAll_cons : WithinAll kept (t :: l) s ↔ t.Within kept s ∧ WithinAll kept l s :=
  List.forall_mem_cons

theorem withinAll_empty : WithinAll ∅ l s ↔ OverAll l s :=
  forall₂_congr fun _ _ => within_empty

end

namespace Checker

/-- What lies between two states of a run: operations on the substitution that spare the kept variables,
and reports, each of which was so when it was made. -/
structure Leads (kept : Set Nat) (c c' : Checker) : Prop where
  evolves : Evolves c.subst c'.subst
  spares : Spares kept c.subst c'.subst
  logs : Reported c.subst c'.subst c.diagnostics c'.diagnostics

/-- The substitution is in order, knows all types that the checker can get hold of, and made the kept
variables, which are left in no type of a local. -/
structure Regular (decls : Declarations) (c : Checker) (kept : Set Nat := ∅) : Prop where
  valid : c.subst.Valid
  below : ∀ i ∈ kept, i < c.subst.size
  declared : decls.env.Over c.subst
  locals : ∀ scope ∈ c.scopes, ∀ l ∈ scope, l.2.Within kept c.subst

/-- The step leads from this state to where it ends, or breaks a contract. Where it ends, all is regular
and the result known to the substitution as stated; and if nothing was reported, what the step was to
find out is so. -/
def Keeps {α : Type} (decls : Declarations) (kept : Set Nat) (c : Checker) (x : CheckM α)
    (P : α → Substitution → Prop) (J : α → Checker → Prop) : Prop :=
  Ends (x decls) c (fun a c' => Leads kept c c' ∧ Regular decls c' kept ∧ P a c'.subst ∧
    (c'.diagnostics = c.diagnostics → J a c')) (Leads kept c)

variable {decls : Declarations} {kept : Set Nat} {c c' c'' : Checker} {α β : Type} {t u : Ty}
  {P : α → Substitution → Prop} {Q : β → Substitution → Prop} {J J' : α → Checker → Prop}
  {K : β → Checker → Prop}

/-- Nothing was reported. -/
theorem Leads.of_evolves (h : Evolves c.subst c'.subst) (hspares : Spares kept c.subst c'.subst)
    (hd : c'.diagnostics = c.diagnostics) : Leads kept c c' where
  evolves := h
  spares := hspares
  logs := .of_eq hd

theorem Leads.refl (c : Checker) : Leads kept c c :=
  .of_evolves .refl (.refl kept _) rfl

theorem Leads.trans (h : Leads kept c c') (h' : Leads kept c' c'') : Leads kept c c'' where
  evolves := h.evolves.trans h'.evolves
  spares := h.spares.trans h'.spares
  logs := h.logs.trans h'.logs h.evolves h'.evolves

/-- The scopes make no difference. -/
theorem Leads.with_scopes (h : Leads kept c c') (scopes scopes' : List Scope) :
    Leads kept { c with scopes := scopes } { c' with scopes := scopes' } :=
  ⟨h.evolves, h.spares, h.logs⟩

theorem Leads.within (h : Leads kept c c') (ht : t.Within kept c.subst) : t.Within kept c'.subst :=
  h.spares.within t ht

theorem Leads.withinAll {ts : List Ty} (h : Leads kept c c') (ht : WithinAll kept ts c.subst) :
    WithinAll kept ts c'.subst :=
  fun t hmem => h.within (ht t hmem)

/-- Where nothing was reported in the end, nothing was on the way. -/
theorem Leads.quiet (h : Leads kept c c') (h' : Leads kept c' c'')
    (hq : c''.diagnostics = c.diagnostics) :
    c'.diagnostics = c.diagnostics ∧ c''.diagnostics = c'.diagnostics :=
  h.logs.quiet h'.logs hq

/-- Where only the substitution went on, and the scopes are as before. -/
theorem Regular.evolve (hc : Regular decls c kept) (h : Leads kept c c')
    (hscopes : c'.scopes = c.scopes) : Regular decls c' kept where
  valid := h.evolves.valid hc.valid
  below i hi := Nat.lt_of_lt_of_le (hc.below i hi) (h.evolves.spec hc.valid).2.size_le
  declared t ht := h.evolves.over hc.valid (hc.declared t ht)
  locals scope hs l hl := by
    rw [hscopes] at hs
    exact h.within (hc.locals scope hs l hl)

theorem keeps_pure (hc : Regular decls c kept) {a : α} (h : P a c.subst) (hj : J a c) :
    Keeps decls kept c (pure a) P J :=
  ⟨.refl c, hc, h, fun _ => hj⟩

theorem keeps_throw (v : Violation) : Keeps decls kept c (throw v : CheckM α) P J :=
  Leads.refl c

theorem Keeps.imp {x : CheckM α} (hx : Keeps decls kept c x P J)
    (h : ∀ a c', Leads kept c c' → J a c' → J' a c') : Keeps decls kept c x P J' :=
  Ends.mono hx (fun a c' ⟨hleads, hc', ha, hj⟩ => ⟨hleads, hc', ha, fun hq => h a c' hleads (hj hq)⟩)
    fun _ h => h

/-- What the first step finds out can be used for what both do. -/
theorem Keeps.bind {x : CheckM α} {f : α → CheckM β} (hx : Keeps decls kept c x P J)
    (hf : ∀ a c', Leads kept c c' → Regular decls c' kept → P a c'.subst →
      Keeps decls kept c' (f a) Q fun b c'' => J a c' → K b c'') :
    Keeps decls kept c (x >>= f) Q K :=
  Ends.bind (x := x decls) (f := fun a => f a decls) hx fun a c' ⟨hleads, hc', ha, hj⟩ =>
    (hf a c' hleads hc' ha).mono
      (fun _ _ ⟨hleads', hc'', hb, hk⟩ => ⟨hleads.trans hleads', hc'', hb, fun hq =>
        have ⟨hq₁, hq₂⟩ := hleads.quiet hleads' hq
        hk hq₂ (hj hq₁)⟩)
      fun _ h => hleads.trans h

/-- A step that only looks something up. -/
theorem Keeps.bind_read {f : Declarations → CheckM β}
    (hf : Keeps decls kept c (f decls) Q K) : Keeps decls kept c (read >>= f) Q K :=
  hf

theorem Keeps.bind_get {f : Checker → CheckM β} (hf : Keeps decls kept c (f c) Q K) :
    Keeps decls kept c (get >>= f) Q K :=
  hf

/-! ## Elementary steps -/

theorem keeps_onSubst (hc : Regular decls c kept) {f : Substitution → α × Substitution}
    (hf : Evolves c.subst (f c.subst).2) (hspares : Spares kept c.subst (f c.subst).2)
    (h : P (f c.subst).1 (f c.subst).2) (hj : J (f c.subst).1 { c with subst := (f c.subst).2 }) :
    Keeps decls kept c (onSubst f) P J :=
  have hleads : Leads kept c { c with subst := (f c.subst).2 } := .of_evolves hf hspares rfl
  ⟨hleads, hc.evolve hleads rfl, h, fun _ => hj⟩

/-- There is no run behind a report that reports nothing. -/
theorem keeps_report (hc : Regular decls c kept) (d : Diagnostic) (hd : d.HoldsAt c.subst) :
    Keeps decls kept c (report d) (fun _ _ => True) fun _ _ => False :=
  have hleads : Leads kept c { c with diagnostics := c.diagnostics ++ [d] } :=
    ⟨.refl, .refl kept _, [d], rfl, List.forall_mem_singleton.mpr hd.arises⟩
  ⟨hleads, hc.evolve hleads rfl, trivial, fun h => absurd (congrArg List.length h) (by simp)⟩

theorem keeps_fresh (hc : Regular decls c kept) :
    Keeps decls kept c fresh (Ty.Within kept) fun _ c' => c'.scopes = c.scopes :=
  keeps_onSubst hc (.single .fresh) hc.valid.spares_fresh (within_fresh hc.below) rfl

/-- Whatever was in the declared type, its copy is made of new variables. -/
theorem keeps_instantiate (hc : Regular decls c kept) (ht : t.Over c.subst) :
    Keeps decls kept c (instantiate t) (Ty.Within kept) fun u c' =>
      c'.scopes = c.scopes ∧ c.subst.IsInstance t u :=
  keeps_onSubst hc (.single (.instantiate ht)) (hc.valid.spares_freshFor _)
    (hc.valid.within_instantiate hc.below) ⟨rfl, _, rfl⟩

theorem keeps_instantiateOrFresh (hc : Regular decls c kept) {ty? : Option Ty}
    (h : ∀ t, ty? = some t → t.Over c.subst) :
    Keeps decls kept c (instantiateOrFresh ty?) (Ty.Within kept) fun u c' =>
      c'.scopes = c.scopes ∧ ∀ t ∈ ty?, c.subst.IsInstance t u := by
  cases ty? with
  | none => exact (keeps_fresh hc).imp fun _ _ _ hs => ⟨hs, nofun⟩
  | some t =>
    refine (keeps_instantiate hc (h t rfl)).imp fun u c' _ ⟨hs, hu⟩ => ⟨hs, fun t' ht' => ?_⟩
    cases ht'
    exact hu

/-- Where the value is not known to have the field, any type will do. -/
theorem keeps_openAccess (hc : Regular decls c kept) {f : String}
    (hfree : ∀ constr ts, c.subst.chase t = .named constr ts → decls.env.field? constr f = none) :
    Keeps decls kept c fresh (Ty.Within kept) fun u c' => c'.scopes = c.scopes ∧
      ∀ {Γ s₀ span value fs}, HasType decls Γ s₀ value t c.subst →
        HasType decls Γ s₀ (.access span value f fs) u c'.subst := by
  refine (keeps_fresh hc).imp fun u c' h hs => ⟨hs, fun hvalue => ?_⟩
  refine .later (.openAccess hvalue fun constr hskeleton => ?_) h.evolves (.refl _ u)
  obtain ⟨ts, hchase⟩ := hc.valid.chase_of_skeleton hskeleton
  exact hfree constr ts hchase

/-- The field of a value has a copy of the declared type, if the type of the value is known by then to be
named as a constructor with this field. -/
theorem keeps_access (hc : Regular decls c kept) (ht : t.Over c.subst) (f : String) :
    Keeps decls kept c (do
      let env := (← read).env
      match (← get).subst.chase t with
      | .named constr _ => instantiateOrFresh (env.field? constr f)
      | _ => fresh) (Ty.Within kept) fun u c' => c'.scopes = c.scopes ∧
        ∀ {Γ s₀ span value fs}, HasType decls Γ s₀ value t c.subst →
          HasType decls Γ s₀ (.access span value f fs) u c'.subst := by
  refine .bind_read (.bind_get ?_)
  have hsame := hc.valid.same_chase ht
  cases hchase : c.subst.chase t with
  | named constr ts =>
    rw [hchase] at hsame
    dsimp only
    cases hfield : decls.env.field? constr f with
    | some signature =>
      refine (keeps_instantiate hc (hc.declared signature (.of_field? hfield))).imp ?_
      intro u c' h ⟨hs, hinst⟩
      refine ⟨hs, fun hvalue => ?_⟩
      exact .later (.access (hvalue.later .refl hsame.symm) hfield hinst) h.evolves (.refl _ u)
    | none =>
      refine keeps_openAccess hc fun constr' ts' h => ?_
      cases hchase.symm.trans h
      exact hfield
  | var v => exact keeps_openAccess hc fun constr ts h => by cases hchase.symm.trans h
  | fn d e => exact keeps_openAccess hc fun constr ts h => by cases hchase.symm.trans h

theorem keeps_unifyAt (hc : Regular decls c kept) (ht : t.Within kept c.subst)
    (hu : u.Within kept c.subst) (s : Span) :
    Keeps decls kept c (unifyAt t u s) (Ty.Within kept) fun r c' =>
      c'.scopes = c.scopes ∧ c'.subst.Same t u ∧ c'.subst.Same t r := by
  have hrun := hc.valid.unify_run hu.known ht.known
  have hadv := hrun.advances hc.valid hu.known ht.known
  obtain ⟨hspares, hresult⟩ := hrun.spares hc.valid hu ht
  have hstep : Keeps decls kept c (onSubst (·.unify u t))
      (fun r s' => t.Within kept s' ∧ (∀ x, r = .unified x → x.Within kept s') ∧
        Unifies c.subst u t r s')
      fun r c' => c'.scopes = c.scopes ∧
        ∀ x, r = .unified x → c'.subst.Same t u ∧ c'.subst.Same t x := by
    refine keeps_onSubst hc (.single (.unify hu.known ht.known)) hspares
      ⟨hspares.within t ht, hresult, hrun⟩ ⟨rfl, fun x hx => ?_⟩
    obtain ⟨hut, hxt⟩ := hrun.skeleton_eq hc.valid hu.known ht.known hx
    have ht' := hadv.grows.over ht.known
    exact ⟨hadv.valid.same ht' (hadv.grows.over hu.known) hut.symm,
      hadv.valid.same ht' (hadv.over_result x hx) hxt.symm⟩
  refine hstep.bind fun r c₁ _ hc₁ h => ?_
  obtain ⟨ht₁, hr, hrun₁⟩ := h
  cases r with
  | unified x => exact keeps_pure hc₁ (hr x rfl) fun ⟨hs, hj⟩ => ⟨hs, hj x rfl⟩
  | mismatch e a =>
    have hreport := hrun₁.mismatch_holdsAt hc.valid hu.known ht.known s
    exact .bind_get ((keeps_report hc₁ _ hreport).bind fun _ c₂ h₂ hc₂ _ =>
      keeps_pure hc₂ (h₂.within ht₁) fun h => h.elim)
  | circular x v =>
    have hreport := hrun₁.circular_holdsAt hc.valid hu.known ht.known s
    exact .bind_get ((keeps_report hc₁ _ hreport).bind fun _ c₂ h₂ hc₂ _ =>
      keeps_pure hc₂ (h₂.within ht₁) fun h => h.elim)

theorem keeps_bindLocal (hc : Regular decls c kept) (n : String) (ht : t.Within kept c.subst) :
    Keeps decls kept c (bindLocal n t) (fun _ _ => True) fun _ c' => c'.subst = c.subst ∧
      c'.scopes.flatten = (n, t) :: c.scopes.flatten ∧ c'.scopes.tail = c.scopes.tail := by
  refine .bind_get ?_
  cases hscopes : c.scopes with
  | nil => exact keeps_throw _
  | cons scope outer =>
    refine ⟨.of_evolves .refl (.refl kept _) rfl, { hc with locals := fun inner hinner l hl => ?_ },
      trivial, fun _ => ⟨rfl, rfl, rfl⟩⟩
    rcases List.mem_cons.mp hinner with rfl | hinner
    · rcases List.mem_cons.mp hl with rfl | hl
      · exact ht
      · exact hc.locals scope (hscopes ▸ List.mem_cons_self) l hl
    · exact hc.locals inner (hscopes ▸ List.mem_cons_of_mem scope hinner) l hl

/-- The state with a new innermost scope. -/
def opened (c : Checker) : Checker :=
  { c with scopes := [] :: c.scopes }

/-- The state without the innermost scope. -/
def closed (c : Checker) : Checker :=
  { c with scopes := c.scopes.tail }

theorem Regular.opened (hc : Regular decls c kept) : Regular decls c.opened kept :=
  { hc with
    locals := fun scope hs l hl => by
      rcases List.mem_cons.mp hs with rfl | hs
      · cases hl
      · exact hc.locals scope hs l hl }

theorem Regular.closed (hc : Regular decls c kept) : Regular decls c.closed kept :=
  { hc with locals := fun scope hs => hc.locals scope (List.mem_of_mem_tail hs) }

theorem keeps_withScope {x : CheckM α} (hx : Keeps decls kept c.opened x P fun a c' => J a c'.closed) :
    Keeps decls kept c (withScope x) P J := by
  change Ends (x decls >>= fun a => (do modify closed; return a : CheckM α) decls) c.opened _ _
  refine Ends.bind (hx.mono ?_ fun c' h => h.with_scopes _ _) fun a c' h => h
  exact fun a c' ⟨h, hc', ha, hj⟩ => ⟨h.with_scopes _ _, hc'.closed, ha, hj⟩

/-! ## Names and places -/

theorem lookup_flatten {scopes : List Scope} {n : String} :
    scopes.flatten.lookup n = scopes.findSome? (·.lookup n) := by
  induction scopes with
  | nil => rfl
  | cons scope outer ih =>
    rw [List.flatten_cons, List.lookup_append, List.findSome?_cons, ih]
    cases scope.lookup n <;> rfl

theorem keeps_lookup? (hc : Regular decls c kept) (n : String) :
    Keeps decls kept c (lookup? n) (fun r s => ∀ t, r = some t → t.Within kept s) fun r c' =>
      c'.scopes = c.scopes ∧ ∀ t, r = some t → NameHas decls c.scopes.flatten c.subst n t := by
  refine .bind_get ?_
  cases hlocal : c.scopes.findSome? (·.lookup n) with
  | some t =>
    obtain ⟨scope, hscope, hl⟩ := List.exists_of_findSome?_eq_some hlocal
    refine keeps_pure hc (fun u hu => ?_) ⟨rfl, fun u hu => ?_⟩
    · cases hu
      exact hc.locals scope hscope (n, t) (mem_of_lookup hl)
    · cases hu
      exact .local (lookup_flatten.trans hlocal)
  | none =>
    refine .bind_read ?_
    cases hglobal : decls.env.global? n with
    | some t =>
      refine (keeps_instantiate hc (hc.declared t (.global hglobal))).bind fun u c₁ _ hc₁ hu => ?_
      refine keeps_pure hc₁ (fun u' hu' => ?_) fun ⟨hs, hj⟩ => ⟨hs, fun u' hu' => ?_⟩
      · cases hu'
        exact hu
      · cases hu'
        exact .global (lookup_flatten.trans hlocal) hglobal hj
    | none => exact keeps_pure hc nofun ⟨rfl, nofun⟩

/-- A local or an instance of a global; a name that is not known is reported. -/
theorem keeps_lookup (hc : Regular decls c kept) (n : String) (s : Span) {x : CheckM Ty}
    (hx : ∀ c', Leads kept c c' → Regular decls c' kept →
      Keeps decls kept c' x (Ty.Within kept) fun _ _ => True) :
    Keeps decls kept c (do
      match ← lookup? n with
      | some ty => return ty
      | none => do
        report (.symbolNotFound n s)
        x) (Ty.Within kept) fun t c' =>
          c'.scopes = c.scopes ∧ NameHas decls c.scopes.flatten c.subst n t := by
  refine (keeps_lookup? hc n).bind fun r c₁ h₁ hc₁ hr => ?_
  cases r with
  | some t => exact keeps_pure hc₁ (hr t rfl) fun ⟨hs, hj⟩ => ⟨hs, hj t rfl⟩
  | none =>
    exact (keeps_report hc₁ (.symbolNotFound n s) trivial).bind fun _ c₂ h₂ hc₂ _ =>
      (hx c₂ (h₁.trans h₂) hc₂).imp fun _ _ _ _ h => h.elim

theorem keeps_typeOfPlace (hc : Regular decls c kept) {place : Place}
    (h : place.root.ty.Within kept c.subst) :
    Keeps decls kept c (typeOfPlace place) (Ty.Within kept) fun t c' =>
      c'.scopes = c.scopes ∧ PlaceHas decls c.subst place t c'.subst := by
  cases place with
  | argument arg tag => exact keeps_pure hc h ⟨rfl, .argument⟩
  | field parent n tag =>
    refine .bind_read ?_
    have hfield : ∀ t, parent.tag?.bind (decls.env.field? · n) = some t → t.Over c.subst := by
      intro t ht
      obtain ⟨constr, -, hfield⟩ := Option.bind_eq_some_iff.mp ht
      exact hc.declared t (.of_field? hfield)
    refine (keeps_instantiateOrFresh hc hfield).imp fun t c' hleads ⟨hs, hj⟩ => ⟨hs, ?_⟩
    refine .later ?_ hleads.evolves (.refl _ t)
    cases hdeclared : parent.tag?.bind (decls.env.field? · n) with
    | some signature => exact .field hdeclared (hj signature hdeclared)
    | none => exact .openField hdeclared

end Checker

end Clausal
