import Clausal.Proofs.Control
import Clausal.Typing.Matcher

/-!
# What the steps of the checker report

Problems are only ever added. Those that tell of names, constructors, fields and numbers of patterns
do not depend on types; this module says which of them each elementary step adds, and which locals it
puts into the innermost scope. No step touches the scopes otherwise.
-/
namespace Clausal

/-- The problem does not depend on types. -/
def Diagnostic.isLexical : Diagnostic → Bool
  | .typeMismatch _ _ _ => false
  | .circularType _ _ _ => false
  | .symbolNotFound _ _ => true
  | .arityMismatch _ _ _ => true

namespace Checker

/-- The scopes with locals added to the innermost one. -/
def push (locals : Scope) : List Scope → List Scope
  | [] => []
  | scope :: outer => (locals ++ scope) :: outer

/-- The names of the locals in scope, the innermost first. -/
def known (c : Checker) : List String :=
  c.scopes.flatMap fun scope => scope.map Prod.fst

/-- In between, locals of these names were put into the innermost scope, in this order, and problems
were added, of which these do not depend on types. -/
structure Turns (c c' : Checker) (names : List String) (ds : List Diagnostic) : Prop where
  scopes_eq : ∃ locals, locals.map Prod.fst = names.reverse ∧ c'.scopes = push locals c.scopes
  known_eq : c'.known = names.reverse ++ c.known
  logs : ∃ all, c'.diagnostics = c.diagnostics ++ all ∧ all.filter Diagnostic.isLexical = ds

variable {decls : Declarations} {c c' c'' : Checker} {names names' : List String}
  {ds ds' : List Diagnostic} {α β : Type}

theorem push_nil (scopes : List Scope) : push [] scopes = scopes := by
  cases scopes <;> rfl

theorem push_push (l l' : Scope) (scopes : List Scope) :
    push l' (push l scopes) = push (l' ++ l) scopes := by
  cases scopes with
  | nil => rfl
  | cons scope outer => rw [push, push, push, List.append_assoc]

theorem Turns.of_eq (hs : c'.scopes = c.scopes) (hd : c'.diagnostics = c.diagnostics) :
    Turns c c' [] [] where
  scopes_eq := ⟨[], rfl, by rw [hs, push_nil]⟩
  known_eq := by rw [known, hs]; rfl
  logs := ⟨[], by rw [hd, List.append_nil], rfl⟩

theorem Turns.trans (h : Turns c c' names ds) (h' : Turns c' c'' names' ds') :
    Turns c c'' (names ++ names') (ds ++ ds') where
  scopes_eq := by
    obtain ⟨l, hl, hc'⟩ := h.scopes_eq
    obtain ⟨l', hl', hc''⟩ := h'.scopes_eq
    refine ⟨l' ++ l, ?_, ?_⟩
    · rw [List.map_append, hl, hl', List.reverse_append]
    · rw [hc'', hc', push_push]
  known_eq := by rw [h'.known_eq, h.known_eq, List.reverse_append, List.append_assoc]
  logs := by
    obtain ⟨all, hall, hds⟩ := h.logs
    obtain ⟨all', hall', hds'⟩ := h'.logs
    refine ⟨all ++ all', ?_, ?_⟩
    · rw [hall', hall, List.append_assoc]
    · rw [List.filter_append, hds, hds']

/-- Wherever the step succeeds, it binds these names and adds these problems. -/
def Adds (decls : Declarations) (c : Checker) (x : CheckM α) (names : List String)
    (ds : List Diagnostic) : Prop :=
  ∀ a c', x decls c = .ok a c' → Turns c c' names ds

theorem adds_pure (a : α) : Adds decls c (pure a) [] [] := by
  intro a' c' h
  cases h
  exact .of_eq rfl rfl

theorem Adds.bind {x : CheckM α} {f : α → CheckM β} (hx : Adds decls c x names ds)
    (hf : ∀ a c', x decls c = .ok a c' → c'.known = names.reverse ++ c.known →
      Adds decls c' (f a) names' ds') :
    Adds decls c (x >>= f) (names ++ names') (ds ++ ds') := by
  intro b c'' h
  obtain ⟨a, c', hrun, h⟩ := exists_of_check_bind_eq_ok h
  have hturns := hx a c' hrun
  exact hturns.trans (hf a c' hrun hturns.known_eq b c'' h)

/-- A step that binds and reports nothing makes no difference to those behind it. -/
theorem Adds.bind_quiet {x : CheckM α} {f : α → CheckM β} (hx : Adds decls c x [] [])
    (hf : ∀ a c', x decls c = .ok a c' → c'.known = c.known → Adds decls c' (f a) names ds) :
    Adds decls c (x >>= f) names ds :=
  Adds.bind hx hf

/-- A step that binds and reports nothing makes no difference to those before it. -/
theorem Adds.bind_last {x : CheckM α} {f : α → CheckM β} (hx : Adds decls c x names ds)
    (hf : ∀ a c', Adds decls c' (f a) [] []) : Adds decls c (x >>= f) names ds := by
  have h := hx.bind fun a c' _ _ => hf a c'
  rw [List.append_nil, List.append_nil] at h
  exact h

theorem Adds.map {x : CheckM α} (hx : Adds decls c x names ds) (g : α → β) :
    Adds decls c (do return g (← x)) names ds :=
  hx.bind_last fun a _ => adds_pure (g a)

theorem adds_onSubst (f : Substitution → α × Substitution) : Adds decls c (onSubst f) [] [] := by
  intro a c' h
  cases h
  exact .of_eq rfl rfl

theorem adds_fresh : Adds decls c fresh [] [] :=
  adds_onSubst _

theorem adds_instantiate (t : Ty) : Adds decls c (instantiate t) [] [] :=
  adds_onSubst _

theorem adds_instantiateOrFresh (t : Option Ty) : Adds decls c (instantiateOrFresh t) [] [] := by
  cases t with
  | none => exact adds_fresh
  | some t => exact adds_instantiate t

theorem adds_report {d : Diagnostic} (h : d.isLexical = true) :
    Adds decls c (report d) [] [d] := by
  intro a c' hrun
  cases hrun
  exact ⟨⟨[], rfl, (push_nil _).symm⟩, rfl, [d], rfl, List.filter_cons_of_pos h⟩

theorem adds_unifyAt (expected actual : Ty) (span : Span) :
    Adds decls c (unifyAt expected actual span) [] [] := by
  refine Adds.bind_quiet (adds_onSubst _) fun result c' _ _ => ?_
  cases result with
  | unified t => exact adds_pure t
  | mismatch e t =>
    intro a c'' h
    cases h
    exact ⟨⟨[], rfl, (push_nil _).symm⟩, rfl, _, rfl, rfl⟩
  | circular t v =>
    intro a c'' h
    cases h
    exact ⟨⟨[], rfl, (push_nil _).symm⟩, rfl, _, rfl, rfl⟩

theorem adds_typeOfPlace (place : Place) : Adds decls c (typeOfPlace place) [] [] := by
  cases place with
  | argument arg tag => exact adds_pure _
  | field parent name tag => exact adds_instantiateOrFresh _

theorem adds_bindLocal (n : String) (t : Ty) : Adds decls c (bindLocal n t) [n] [] := by
  intro a c' h
  obtain ⟨subst, diagnostics, scopes⟩ := c
  cases scopes with
  | nil => cases h
  | cons scope outer =>
    cases h
    exact ⟨⟨[(n, t)], rfl, rfl⟩, rfl, [], (List.append_nil _).symm, rfl⟩

theorem exists_of_withScope {x : CheckM α} {a : α} (h : withScope x decls c = .ok a c'') :
    ∃ c', x decls { c with scopes := [] :: c.scopes } = .ok a c' ∧
      c'' = { c' with scopes := c'.scopes.tail } := by
  obtain ⟨⟨⟩, c₁, hopen, h⟩ := exists_of_check_bind_eq_ok h
  cases hopen
  obtain ⟨a', c', hx, h⟩ := exists_of_check_bind_eq_ok h
  cases h
  exact ⟨c', hx, rfl⟩

theorem adds_withScope {x : CheckM α}
    (h : Adds decls { c with scopes := [] :: c.scopes } x names ds) :
    Adds decls c (withScope x) [] ds := by
  intro a c'' hrun
  obtain ⟨c', hx, rfl⟩ := exists_of_withScope hrun
  obtain ⟨⟨l, -, hscopes⟩, -, hlogs⟩ := h a c' hx
  have hs : c'.scopes.tail = c.scopes := by rw [hscopes]; rfl
  refine ⟨⟨[], rfl, by rw [push_nil]; exact hs⟩, ?_, hlogs⟩
  exact congrArg (List.flatMap fun scope => scope.map Prod.fst) hs

/-- The name is a local or a global. -/
def InScope (decls : Declarations) (known : List String) (n : String) : Prop :=
  n ∈ known ∨ (decls.env.global? n).isSome

instance (known : List String) (n : String) : Decidable (InScope decls known n) :=
  inferInstanceAs (Decidable (_ ∨ _))

theorem isSome_lookup_iff {scope : Scope} {n : String} :
    (scope.lookup n).isSome ↔ n ∈ scope.map Prod.fst := by
  rw [← Option.ne_none_iff_isSome, Ne, List.lookup_eq_none_iff, List.mem_map]
  simp

theorem isSome_findSome?_iff {scopes : List Scope} {n : String} :
    (scopes.findSome? (·.lookup n)).isSome ↔ n ∈ scopes.flatMap fun scope => scope.map Prod.fst := by
  rw [List.isSome_findSome?, List.any_eq_true, List.mem_flatMap]
  exact exists_congr fun scope => and_congr_right fun _ => isSome_lookup_iff

theorem lookup?_spec {n : String} {r : Option Ty} (h : lookup? n decls c = .ok r c') :
    Turns c c' [] [] ∧ (r.isSome ↔ InScope decls c.known n) := by
  obtain ⟨c₁, c₁', hget, h⟩ := exists_of_check_bind_eq_ok h
  cases hget
  have hlocal := @isSome_findSome?_iff c.scopes n
  cases hfind : c.scopes.findSome? (·.lookup n) with
  | some t =>
    rw [hfind] at h hlocal
    cases h
    exact ⟨.of_eq rfl rfl, fun _ => .inl (hlocal.mp rfl), fun _ => rfl⟩
  | none =>
    rw [hfind] at h hlocal
    have hunknown : n ∉ c.known := fun hn => Bool.false_ne_true (hlocal.mpr hn)
    obtain ⟨decls', c₁, hread, h⟩ := exists_of_check_bind_eq_ok h
    cases hread
    rw [InScope]
    cases hglobal : decls.env.global? n with
    | some t =>
      rw [hglobal] at h
      obtain ⟨t', c₂, hinst, h⟩ := exists_of_check_bind_eq_ok h
      cases h
      exact ⟨adds_instantiate t t' _ hinst, fun _ => .inr rfl, fun _ => rfl⟩
    | none =>
      rw [hglobal] at h
      cases h
      refine ⟨.of_eq rfl rfl, fun h => absurd h Bool.false_ne_true, fun h => ?_⟩
      rcases h with h | h
      · exact absurd h hunknown
      · exact absurd h Bool.false_ne_true

end Checker
end Clausal
