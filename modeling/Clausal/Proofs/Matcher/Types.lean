import Clausal.Proofs.Matcher.Bound

/-!
# The types that a program mentions

Annotations, and the types of placeholders and results. A substitution knows a program if it made the
variables of all of these. Binding mentions no type that was not there: a place has the type of its
placeholder.
-/
namespace Clausal

/-- The type of the placeholder that a place starts from. -/
def placeTypes (place : Option Place) : List Ty :=
  (place.map (·.root.ty)).toList

namespace Pattern

mutual

/-- The types of the annotations and places in a pattern. -/
def types : Pattern → List Ty
  | .ignore _ => []
  | .capture _ _ annotation place => annotation.toList ++ placeTypes place
  | .equal _ _ place => placeTypes place
  | .record _ _ _ fields place => placeTypes place ++ fieldTypes fields
  | .tuple _ _ _ fields place => placeTypes place ++ typesAll fields
  | .group _ members => typesAll members

/-- The types of the annotations and places in patterns. -/
def typesAll : List Pattern → List Ty
  | [] => []
  | p :: ps => types p ++ typesAll ps

/-- The types of the annotations and places in the patterns of fields. -/
def fieldTypes : List FieldPattern → List Ty
  | [] => []
  | ⟨_, _, p⟩ :: fs => types p ++ fieldTypes fs

end

end Pattern

mutual

/-- The types that the matchers in an expression mention. -/
def Expr.types : Expr → List Ty
  | .literal _ _ => []
  | .name _ _ => []
  | .call _ callee args => callee.types ++ Expr.typesAll args
  | .cond _ c t e => c.types ++ t.types ++ e.types
  | .letIn _ _ _ value body => value.types ++ body.types
  | .access _ value _ _ => value.types
  | .matching _ scrutinees m => Expr.typesAll scrutinees ++ m.types

/-- The types that the matchers in expressions mention. -/
def Expr.typesAll : List Expr → List Ty
  | [] => []
  | e :: es => e.types ++ Expr.typesAll es

/-- The types of the placeholders, of the result, and those that the clauses mention. -/
def Matcher.types : Matcher → List Ty
  | ⟨_, _, params, result, clauses⟩ => params.map (·.ty) ++ result :: Matcher.clauseTypes clauses

/-- The types that clauses mention. -/
def Matcher.clauseTypes : List Clause → List Ty
  | [] => []
  | ⟨_, patterns, body⟩ :: clauses =>
    Pattern.typesAll patterns ++ body.types ++ Matcher.clauseTypes clauses

end

/-! ## Binding -/

variable {config : Config}

namespace Pattern

/-- The place of a constructor has the type of its placeholder. -/
theorem mem_placeTypes_tagged {place : Place} {c : String} {t : Ty} :
    t ∈ placeTypes (some (place.tagged c)) ↔ t = (place.tagged c).root.ty :=
  List.mem_singleton

mutual

theorem Binds.types : ∀ {p q : Pattern} {place : Place}, p.Binds config place q →
    ∀ t ∈ q.types, t ∈ p.types ∨ t = place.root.ty
  | _, _, _, .ignore, t, ht => by cases ht
  | _, _, _, .capture, t, ht => by
    rw [Pattern.types, List.mem_append] at ht ⊢
    exact ht.imp .inl List.mem_singleton.mp
  | _, _, _, .equal, t, ht => .inr (List.mem_singleton.mp ht)
  | _, _, place, @Binds.record _ _ c _ _ _ _ h, t, ht => by
    rw [Pattern.types, List.mem_append, mem_placeTypes_tagged] at ht
    rw [← place.root_tagged c]
    exact ht.elim .inr (h.types t)
  | _, _, place, @Binds.tuple _ _ c _ _ _ _ h, t, ht => by
    rw [Pattern.types, List.mem_append, mem_placeTypes_tagged] at ht
    rw [← place.root_tagged c]
    exact ht.elim .inr (h.types t)

theorem FieldsBind.types : ∀ {fs gs : List FieldPattern} {parent : Place},
    FieldsBind config parent fs gs → ∀ t ∈ fieldTypes gs, t ∈ fieldTypes fs ∨ t = parent.root.ty
  | _, _, _, .nil, t, ht => by cases ht
  | _, _, _, .cons hp hfs, t, ht => by
    rw [fieldTypes, List.mem_append] at ht
    rw [fieldTypes, List.mem_append, or_assoc]
    rcases ht with ht | ht
    · exact (hp.types t ht).imp_right .inr
    · exact .inr (hfs.types t ht)

theorem PositionsBind.types : ∀ {ps qs : List Pattern} {parent : Place} {position : Nat},
    PositionsBind config parent position ps qs →
      ∀ t ∈ typesAll qs, t ∈ typesAll ps ∨ t = parent.root.ty
  | _, _, _, _, .nil, t, ht => by cases ht
  | _, _, _, _, .cons _ hp hps, t, ht => by
    rw [typesAll, List.mem_append] at ht
    rw [typesAll, List.mem_append, or_assoc]
    rcases ht with ht | ht
    · exact (hp.types t ht).imp_right .inr
    · exact .inr (hps.types t ht)

end

theorem typesAll_bindAll : ∀ {ps qs : List Pattern} {params : List Argument},
    bindAll config ps params = .ok qs →
    ∀ t ∈ typesAll qs, t ∈ typesAll ps ∨ t ∈ params.map (·.ty)
  | [], qs, params, h, t, ht => by
    cases h
    cases ht
  | _ :: _, qs, [], h, t, ht => by
    cases h
    cases ht
  | p :: ps, qs, a :: params, h, t, ht => by
    rw [bindAll] at h
    obtain ⟨q, hp, h⟩ := exists_of_bind_eq_ok h
    obtain ⟨qs', hps, h⟩ := exists_of_bind_eq_ok h
    cases h
    rw [typesAll, List.mem_append] at ht
    rw [typesAll, List.mem_append, List.map_cons, List.mem_cons]
    rcases ht with ht | ht
    · exact ((binds_of_bind hp).types t ht).imp .inl .inl
    · exact (typesAll_bindAll hps t ht).imp .inr .inr

theorem mem_typesAll {ps : List Pattern} {t : Ty} : t ∈ typesAll ps ↔ ∃ p ∈ ps, t ∈ p.types := by
  induction ps with
  | nil => simp [typesAll]
  | cons p ps ih => simp [typesAll, ih]

theorem typesAll_fitTo {arity : Nat} {span : Span} {ps : List Pattern} {t : Ty}
    (h : t ∈ typesAll (fitTo arity span ps)) : t ∈ typesAll ps := by
  obtain ⟨p, hp, ht⟩ := mem_typesAll.mp h
  rw [fitTo, List.mem_append] at hp
  rcases hp with hp | hp
  · exact mem_typesAll.mpr ⟨p, List.mem_of_mem_take hp, ht⟩
  · rw [List.eq_of_mem_replicate hp] at ht
    cases ht

end Pattern

mutual

theorem Expr.Binds.types : ∀ {e e' : Expr}, e.Binds config e' → e'.types ⊆ e.types
  | _, _, .literal => List.Subset.refl _
  | _, _, .name => List.Subset.refl _
  | _, _, .call hcallee hargs => append_subset_append hcallee.types hargs.types
  | _, _, .cond hc ht he => append_subset_append (append_subset_append hc.types ht.types) he.types
  | _, _, .letIn hvalue hbody => append_subset_append hvalue.types hbody.types
  | _, _, .access hvalue => by
    rw [Expr.types, Expr.types]
    exact hvalue.types
  | _, _, .matching hscrutinees hm => append_subset_append hscrutinees.types hm.types

theorem Expr.BindsAll.types : ∀ {es es' : List Expr}, Expr.BindsAll config es es' →
    Expr.typesAll es' ⊆ Expr.typesAll es
  | _, _, .nil => List.Subset.refl _
  | _, _, .cons he hes => append_subset_append he.types hes.types

theorem Matcher.Binds.types : ∀ {m m' : Matcher}, m.Binds config m' → m'.types ⊆ m.types
  | _, _, .mk hclauses, t, ht => by
    rw [Matcher.types, List.mem_append, List.mem_cons] at ht ⊢
    rcases ht with ht | ht | ht
    · exact .inl ht
    · exact .inr (.inl ht)
    · exact (hclauses.types t ht).symm.imp_right .inr

theorem Matcher.ClausesBind.types : ∀ {params : List Argument} {cs cs' : List Clause},
    Matcher.ClausesBind config params cs cs' →
    ∀ t ∈ Matcher.clauseTypes cs', t ∈ Matcher.clauseTypes cs ∨ t ∈ params.map (·.ty)
  | _, _, _, .nil, t, ht => by cases ht
  | _, _, _, .cons hps hbody hcs, t, ht => by
    simp only [Matcher.clauseTypes, List.mem_append] at ht ⊢
    rcases ht with (ht | ht) | ht
    · rcases Pattern.typesAll_bindAll hps t ht with ht | ht
      · exact .inl (.inl (.inl (Pattern.typesAll_fitTo ht)))
      · exact .inr ht
    · exact .inl (.inl (.inr (hbody.types ht)))
    · exact (hcs.types t ht).imp_left .inr

end

theorem Matcher.types_bind {m m' : Matcher} (h : m.bind config = .ok m') : m'.types ⊆ m.types :=
  (Matcher.binds_of_bind h).types

end Clausal
