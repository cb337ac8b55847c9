import Clausal.Proofs.Substitution.Evolution

/-!
# The unifier is complete and most general

An assignment of types to variables solves a substitution if it is constant on classes and respects
every binding. A run loses no solution that makes its two types equal: it succeeds, and the solution
also solves the substitution behind it.
-/
namespace Clausal

/-- A type for each variable. -/
abbrev Assignment := Nat → Ty

/-- The type under an assignment, arguments of constructors included. -/
def Ty.under (t : Ty) (θ : Assignment) : Ty :=
  t.bindVars fun v => θ v.index

namespace Substitution

structure SolvedBy (s : Substitution) (θ : Assignment) : Prop where
  class_eq : ∀ v w, s.Has v → s.Has w → s.rootIndex v = s.rootIndex w → θ v.index = θ w.index
  bound_eq : ∀ v t, s.lookup v = some t → θ v.index = t.under θ

variable {s s' : Substitution} {v w : Var} {t u d c : Ty} {r : Unification} {θ : Assignment}

@[simp] theorem under_var : (Ty.var v).under θ = θ v.index :=
  Ty.bindVars_var

@[simp] theorem under_named {constr : String} {ts : List Ty} :
    (Ty.named constr ts).under θ = .named constr (ts.map (·.under θ)) :=
  Ty.bindVars_named constr

@[simp] theorem under_fn : (Ty.fn d c).under θ = .fn (d.under θ) (c.under θ) :=
  Ty.bindVars_fn

/-- A solution does not tell a type from what it resolves to. -/
theorem SolvedBy.under_resolve (hθ : s.SolvedBy θ) (hs : s.Valid) (ht : t.Over s) :
    (s.resolve t).under θ = t.under θ := by
  induction t, ht using hs.induction with
  | unbound v hv hnone =>
    rw [resolve_var_of_unbound hnone, under_var, under_var]
    exact hθ.class_eq _ _ (hs.has_root hv) hv (hs.root_root v)
  | bound v t hb ih => rw [hs.resolve_var_of_bound hb, under_var, hθ.bound_eq v t hb, ih]
  | named constr ts _ ih =>
    rw [resolve_named, under_named, under_named, List.map_map]
    congr 1
    exact List.map_congr_left ih
  | fn d c _ ihd ihc => rw [resolve_fn, under_fn, under_fn, ihd, ihc]

/-- No solution equates a variable with a larger type that it occurs in. -/
theorem SolvedBy.ne_under_of_occurs (hθ : s.SolvedBy θ) (hs : s.Valid) (hv : s.Has v)
    (ht : t.Over s) (hnv : ∀ w, t ≠ .var w) (ho : s.occurs v t = true) :
    θ v.index ≠ t.under θ := by
  obtain ⟨-, hmem⟩ := (hs.occurs_iff ht).mp ho
  have hres : ∀ w, s.resolve t ≠ .var w := by
    intro w
    cases t with
    | var x => exact absurd rfl (hnv x)
    | named constr ts => rw [resolve_named]; exact nofun
    | fn d c => rw [resolve_fn]; exact nofun
  have hlt : (θ (s.root v).index).size < ((s.resolve t).under θ).size :=
    Ty.size_lt_size_bindVars (f := fun v => θ v.index) hmem hres
  rw [hθ.under_resolve hs ht, hθ.class_eq _ _ (hs.has_root hv) hv (hs.root_root v)] at hlt
  intro he
  rw [he] at hlt
  exact absurd hlt (lt_irrefl _)

theorem SolvedBy.link (hθ : s.SolvedBy θ) (hs : s.Valid) (hv : s.Has v) (hw : s.Has w)
    (hvn : s.lookup v = none) (hwn : s.lookup w = none) (he : θ v.index = θ w.index) :
    (s.link v w).SolvedBy θ where
  class_eq x y hx hy hxy := by
    obtain ⟨r, hr, hroot⟩ := exists_rootIndex_link (hs.root_lt v hv) (hs.root_lt w hw)
    rw [Has, size_link] at hx hy
    -- all of the merged class has the value of its two old representatives
    have hmerged : ∀ z, s.Has z → (s.rootIndex z = s.rootIndex v ∨ s.rootIndex z = s.rootIndex w) →
        θ z.index = θ v.index := by
      rintro z hz (h | h)
      · exact hθ.class_eq z v hz hv h
      · rw [hθ.class_eq z w hz hw h, he]
    have hr' : ∀ z, s.rootIndex z = r →
        s.rootIndex z = s.rootIndex v ∨ s.rootIndex z = s.rootIndex w := by
      rintro z rfl
      exact hr
    rw [hroot, hroot] at hxy
    split_ifs at hxy with h1 h2 h2
    · rw [hmerged x hx h1, hmerged y hy h2]
    · exact absurd (hr' y hxy.symm) h2
    · exact absurd (hr' x hxy) h1
    · exact hθ.class_eq x y hx hy hxy
  bound_eq x t hx := by
    rw [hs.lookup_link hv hw hvn hwn] at hx
    exact hθ.bound_eq x t hx

theorem SolvedBy.bind (hθ : s.SolvedBy θ) (hs : s.Valid) (hv : s.Has v)
    (he : θ v.index = t.under θ) : (s.bind v t).SolvedBy θ where
  class_eq x y hx hy hxy := by
    rw [Has, size_bind] at hx hy
    rw [rootIndex_bind, rootIndex_bind] at hxy
    exact hθ.class_eq x y hx hy hxy
  bound_eq x b hx := by
    have hxs : s.Has x := (has_of_lookup hx).trans_eq size_bind
    rw [lookup_bind (hs.root_lt v hv)] at hx
    split_ifs at hx with hxv
    · cases hx
      rw [hθ.class_eq x v hxs hv hxv, he]
    · exact hθ.bound_eq x b hx

/-- A run succeeds if some solution equates its types, and loses none of these solutions. -/
theorem Unifies.complete (h : Unifies s t u r s') (hs : s.Valid) (ht : t.Over s) (hu : u.Over s)
    (hθ : s.SolvedBy θ) (he : t.under θ = u.under θ) :
    (∃ x, r = .unified x ∧ x.under θ = t.under θ) ∧ s'.SolvedBy θ := by
  induction h with
  | chaseLeft hv _ ih =>
    rw [under_var, hθ.bound_eq _ _ hv] at he
    rw [under_var, hθ.bound_eq _ _ hv]
    exact ih hs (hs.bound_over _ _ hv) hu hθ he
  | chaseRight _ hw _ ih =>
    rw [under_var, hθ.bound_eq _ _ hw] at he
    exact ih hs ht (hs.bound_over _ _ hw) hθ he
  | same _ _ _ => exact ⟨⟨_, rfl, rfl⟩, hθ⟩
  | link hv hw _ =>
    refine ⟨⟨_, rfl, he.symm⟩, ?_⟩
    rw [under_var, under_var] at he
    exact hθ.link hs (over_var.mp ht) (over_var.mp hu) hv hw he
  | bindLeft _ _ _ => exact ⟨⟨_, rfl, he.symm⟩, hθ.bind hs (over_var.mp ht) he⟩
  | bindRight _ _ _ => exact ⟨⟨_, rfl, rfl⟩, hθ.bind hs (over_var.mp hu) he.symm⟩
  | circularLeft _ hnv ho =>
    exact absurd he (hθ.ne_under_of_occurs hs (over_var.mp ht) hu hnv ho)
  | circularRight _ hnv ho =>
    exact absurd he.symm (hθ.ne_under_of_occurs hs (over_var.mp hu) ht hnv ho)
  | named => exact ⟨⟨_, rfl, rfl⟩, hθ⟩
  | clash h => exact absurd he ((h.bindVars _).ne)
  | fn hd _ ihd ihc =>
    obtain ⟨hdo, hco⟩ := over_fn.mp ht
    obtain ⟨hdo', hco'⟩ := over_fn.mp hu
    rw [under_fn, under_fn] at he
    obtain ⟨hed, hec⟩ := Ty.fn.inj he
    have h₁ := hd.advances hs hdo' hdo
    obtain ⟨⟨x, hx, hxd⟩, hθ₁⟩ := ihd hs hdo' hdo hθ hed.symm
    obtain ⟨⟨y, hy, hyc⟩, hθ₂⟩ := ihc h₁.valid (h₁.grows.over hco) (h₁.grows.over hco') hθ₁ hec
    cases hx
    cases hy
    exact ⟨⟨_, rfl, by rw [under_fn, under_fn, hxd, hyc, hed]⟩, hθ₂⟩
  | fnDomain _ hr ihd =>
    rw [under_fn, under_fn] at he
    obtain ⟨⟨x, rfl, -⟩, -⟩ := ihd hs (over_fn.mp hu).1 (over_fn.mp ht).1 hθ (Ty.fn.inj he).1.symm
    cases hr
  | fnCodomain hd _ hr ihd ihc =>
    obtain ⟨hdo, hco⟩ := over_fn.mp ht
    obtain ⟨hdo', hco'⟩ := over_fn.mp hu
    rw [under_fn, under_fn] at he
    obtain ⟨hed, hec⟩ := Ty.fn.inj he
    have h₁ := hd.advances hs hdo' hdo
    obtain ⟨-, hθ₁⟩ := ihd hs hdo' hdo hθ hed.symm
    obtain ⟨⟨y, rfl, -⟩, -⟩ := ihc h₁.valid (h₁.grows.over hco) (h₁.grows.over hco') hθ₁ hec
    cases hr

/-- Every solution that makes two types equal survives their unification, which succeeds with a type
of the same value. So a failure means that no solution makes them equal. -/
theorem unify_complete (hs : Reachable s) (ht : t.Over s) (hu : u.Over s) :
    (∀ θ : Assignment, s.SolvedBy θ → t.under θ = u.under θ →
      ∃ x s', s.unify t u = (.unified x, s') ∧ s'.SolvedBy θ ∧ x.under θ = t.under θ) ∧
    ((s.unify t u).1.isUnified = false →
      ¬ ∃ θ : Assignment, s.SolvedBy θ ∧ t.under θ = u.under θ) := by
  have hrun := hs.valid.unify_run ht hu
  have main : ∀ θ : Assignment, s.SolvedBy θ → t.under θ = u.under θ →
      ∃ x s', s.unify t u = (.unified x, s') ∧ s'.SolvedBy θ ∧ x.under θ = t.under θ := by
    intro θ hθ he
    obtain ⟨⟨x, hx, hxt⟩, hθ'⟩ := hrun.complete hs.valid ht hu hθ he
    exact ⟨x, _, Prod.ext hx rfl, hθ', hxt⟩
  refine ⟨main, ?_⟩
  rintro hfail ⟨θ, hθ, he⟩
  obtain ⟨x, s', hx, -⟩ := main θ hθ he
  rw [hx] at hfail
  cases hfail

/-- Two new variables and `a -> a`, `b -> List Int`, equal where both stand for `List Int`. -/
theorem unify_complete_two_fresh :
    let s := (fresh {}).2.fresh.2
    let t := Ty.fn (.var ⟨0, "?t0"⟩) (.var ⟨0, "?t0"⟩)
    let u := Ty.fn (.var ⟨1, "?t1"⟩) (.named "List" [.constant "Int"])
    let θ : Assignment := fun _ => .named "List" [.constant "Int"]
    Reachable s ∧ t.Over s ∧ u.Over s ∧ s.SolvedBy θ ∧ t.under θ = u.under θ ∧
      ∃ x s', s.unify t u = (.unified x, s') ∧ s'.SolvedBy θ ∧ x.under θ = t.under θ := by
  intro s t u θ
  have hs : Reachable s := (Relation.ReflTransGen.single .fresh).tail .fresh
  have ht : t.Over s := by simp [t, Ty.Over, s, Has, size_fresh]
  have hu : u.Over s := by simp [u, Ty.Over, Ty.constant, s, Has, size_fresh]
  have hθ : s.SolvedBy θ := ⟨fun _ _ _ _ _ => rfl, fun v b hv => by
    rw [lookup_fresh, lookup_fresh] at hv
    cases hv⟩
  have he : t.under θ = u.under θ := by simp [t, u, θ, Ty.constant]
  exact ⟨hs, ht, hu, hθ, he, (unify_complete hs ht hu).1 θ hθ he⟩

end Substitution
end Clausal
