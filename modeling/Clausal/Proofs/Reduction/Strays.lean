import Clausal.Proofs.Matcher.Strays
import Clausal.Proofs.Reduction.Lowered
import Clausal.Proofs.Tree.FreeNames
import Clausal.Proofs.Typing.Reports

/-!
# Names that reduction takes out of scope

The conditions of a clause are tested in front of its captures, so the strays of a matcher are free in
its tree. They are the only such names: every other name that the checker finds is bound where the
tree uses it.
-/
namespace Clausal

open Checker

/-- Every name that a step compares with is in scope, or captured before. -/
def Step.Closed (ok : String → Prop) : List Step → Prop
  | [] => True
  | s :: l => (∀ n, s.compared? = some n → ok n) ∧
    Step.Closed (fun m => s.captured? = some m ∨ ok m) l

variable {ok ok' : String → Prop} {n : String} {captured known : List String} {s : Step}
  {l l₁ l₂ : List Step}

theorem Step.Closed.mono (h : Step.Closed ok l) (hok : ∀ m, ok m → ok' m) : Step.Closed ok' l := by
  induction l generalizing ok ok' with
  | nil => trivial
  | cons s l ih =>
    refine ⟨fun n hn => hok n (h.1 n hn), ih h.2 fun m hm => ?_⟩
    exact hm.imp_right (hok m)

theorem Step.Closed.cons (hs : s.compared? = none) (h : Step.Closed ok l) :
    Step.Closed ok (s :: l) := by
  refine ⟨fun n hn => ?_, h.mono fun _ hm => .inr hm⟩
  rw [hs] at hn
  cases hn

theorem Step.Closed.append (h₁ : Step.Closed ok l₁)
    (h₂ : Step.Closed (fun m => m ∈ l₁.filterMap Step.captured? ∨ ok m) l₂) :
    Step.Closed ok (l₁ ++ l₂) := by
  induction l₁ generalizing ok with
  | nil => exact h₂.mono fun m hm => hm.resolve_left List.not_mem_nil
  | cons s l₁ ih =>
    refine ⟨h₁.1, ih h₁.2 (h₂.mono fun m hm => ?_)⟩
    rw [List.mem_filterMap, List.exists_mem_cons_iff, or_assoc] at hm
    rw [List.mem_filterMap]
    exact or_left_comm.mp hm

theorem Step.mem_strays (h : Step.Closed (fun m => m ∈ captured ∨ ok m) l) (hs : s ∈ l)
    (hn : s.compared? = some n) (hok : ¬ ok n) : n ∈ Step.strays captured l := by
  induction l generalizing captured with
  | nil => cases hs
  | cons s' l ih =>
    obtain ⟨hhead, htail⟩ := h
    rw [Step.strays, List.mem_append]
    rcases List.mem_cons.mp hs with rfl | hs
    · have hcaptured : n ∈ captured := (hhead n hn).resolve_right hok
      rw [hn]
      exact .inl (List.mem_filter.mpr ⟨List.mem_singleton.mpr rfl, decide_eq_true hcaptured⟩)
    · refine .inr (ih (htail.mono fun m hm => ?_) hs)
      rw [List.mem_append, Option.mem_toList, or_assoc]
      exact hm

/-! ## Patterns without reports -/

variable {decls : Declarations} {declared : Option Fields}

theorem inScope_cons {m : String} :
    InScope decls (m :: known) n ↔ n = m ∨ InScope decls known n := by
  rw [InScope, InScope, List.mem_cons, or_assoc]

theorem inScope_reverse {names : List String} :
    InScope decls (names.reverse ++ known) n ↔ n ∈ names ∨ InScope decls known n := by
  rw [InScope, InScope, List.mem_append, List.mem_reverse, or_assoc]

theorem inScope_of_missing {s : Span} (h : missing decls known n s = []) :
    InScope decls known n := by
  by_contra hn
  rw [missing, if_neg hn] at h
  cases h

namespace Pattern

mutual

theorem closed_of_reports : ∀ {p : Pattern} {known : List String}, p.reports decls known = [] →
    Step.Closed (InScope decls known) p.steps
  | .ignore _, known, _ => trivial
  | .capture _ _ _ _, known, _ => .cons rfl trivial
  | .equal _ (.literal _) _, known, _ => .cons rfl trivial
  | .equal s (.name n) _, known, h => by
    rw [reports] at h
    refine ⟨fun m hm => ?_, trivial⟩
    cases hm
    exact inScope_of_missing h
  | .record _ c cs fields _, known, h => by
    rw [reports, List.append_eq_nil_iff] at h
    exact .cons rfl (closed_of_fieldReports h.2)
  | .tuple _ c cs fields _, known, h => by
    rw [reports, List.append_eq_nil_iff] at h
    exact .cons rfl (closed_of_positionReports h.2)
  | .group _ _, known, _ => trivial

theorem closed_of_fieldReports : ∀ {fs : List FieldPattern} {known : List String}
    {declared : Option Fields}, fieldReports decls known declared fs = [] →
    Step.Closed (InScope decls known) (fieldSteps fs)
  | [], known, declared, _ => trivial
  | ⟨_, _, p⟩ :: fs, known, declared, h => by
    rw [fieldReports, List.append_eq_nil_iff, List.append_eq_nil_iff] at h
    refine (closed_of_reports h.1.2).append ((closed_of_fieldReports h.2).mono fun m hm => ?_)
    exact inScope_reverse.mp hm

theorem closed_of_positionReports : ∀ {ps : List Pattern} {known : List String}
    {declared : Option Fields}, positionReports decls known declared ps = [] →
    Step.Closed (InScope decls known) (stepsAll ps)
  | [], known, declared, _ => trivial
  | p :: ps, known, declared, h => by
    rw [positionReports, List.append_eq_nil_iff, List.append_eq_nil_iff] at h
    refine (closed_of_reports h.1.2).append ((closed_of_positionReports h.2).mono fun m hm => ?_)
    exact inScope_reverse.mp hm

end

theorem closed_of_reportsAll : ∀ {ps : List Pattern} {known : List String},
    reportsAll decls known ps = [] → Step.Closed (InScope decls known) (stepsAll ps)
  | [], known, _ => trivial
  | p :: ps, known, h => by
    rw [reportsAll, List.append_eq_nil_iff] at h
    refine (closed_of_reports h.1).append ((closed_of_reportsAll h.2).mono fun m hm => ?_)
    exact inScope_reverse.mp hm

end Pattern

/-! ## Free names of conditions and assignments -/

theorem Place.freeNames_toTree (q : Place) : q.toTree.freeNames = [q.root.name] := by
  induction q with
  | argument arg tag => rfl
  | field parent name tag ih => exact ih

theorem Step.isSome_test? {q : Place} (hs : s.place? = some q) : s.test?.isSome = s.isTest := by
  cases s with
  | capture n place => rfl
  | equal e place =>
    cases hs
    rfl
  | tag c place =>
    cases hs
    rfl

/-- A test uses the placeholder of its value, and the name it compares with. -/
theorem Step.mem_freeNames_test {q : Place} {t : Tree} (hs : s.place? = some q)
    (ht : s.test? = some t) : n ∈ t.freeNames ↔ n = q.root.name ∨ s.compared? = some n := by
  cases s with
  | capture m place => cases ht
  | equal e place =>
    cases hs
    cases ht
    cases e with
    | literal l => simp [Place.equalTest, Tree.freeNames, Tree.freeNamesAll,
        Place.freeNames_toTree, Expected.toTree, Step.compared?]
    | name m => simp [Place.equalTest, Tree.freeNames, Tree.freeNamesAll,
        Place.freeNames_toTree, Expected.toTree, Step.compared?, eq_comm]
  | tag c place =>
    cases hs
    cases ht
    simp [Place.tagTest, Tree.freeNames, Place.freeNames_toTree, Step.compared?]

variable {config : Config} {ps : List Pattern} {params : List Argument}

theorem conditions_ne_nil (h : Pattern.AllBoundAt config ps params) :
    (Pattern.stepsAll ps).filterMap Step.test? ≠ [] ↔
      (Pattern.stepsAll ps).any Step.isTest = true := by
  rw [Ne, List.filterMap_eq_nil_iff, List.any_eq_true]
  push Not
  refine exists_congr fun s => and_congr_right fun hs => ?_
  obtain ⟨q, hq, -⟩ := h.root s hs
  rw [← Step.isSome_test? hq, Option.ne_none_iff_isSome]

theorem mem_freeNames_conditions (h : Pattern.AllBoundAt config ps params)
    (hn : n ∉ params.map (·.name)) :
    (∃ t ∈ (Pattern.stepsAll ps).filterMap Step.test?, n ∈ t.freeNames) ↔
      ∃ s ∈ Pattern.stepsAll ps, s.compared? = some n := by
  constructor
  · rintro ⟨t, ht, hmem⟩
    obtain ⟨s, hs, ht⟩ := List.mem_filterMap.mp ht
    obtain ⟨q, hq, hroot⟩ := h.root s hs
    rcases (Step.mem_freeNames_test hq ht).mp hmem with rfl | hc
    · exact absurd (List.mem_map_of_mem hroot) hn
    · exact ⟨s, hs, hc⟩
  · rintro ⟨s, hs, hc⟩
    obtain ⟨q, hq, -⟩ := h.root s hs
    have htest : s.test?.isSome = true := by
      rw [Step.isSome_test? hq]
      cases s with
      | capture m place => cases hc
      | _ => rfl
    obtain ⟨t, ht⟩ := Option.isSome_iff_exists.mp htest
    exact ⟨t, List.mem_filterMap.mpr ⟨s, hs, ht⟩, (Step.mem_freeNames_test hq ht).mpr (.inr hc)⟩

theorem assignment_spec (h : Pattern.AllBoundAt config ps params) {s : Step}
    (hs : s ∈ Pattern.stepsAll ps) :
    s.assignment?.map Prod.fst = s.captured? ∧
      ∀ b, s.assignment? = some b → ∃ a ∈ params, b.2.freeNames = [a.name] := by
  obtain ⟨q, hq, hroot⟩ := h.root s hs
  cases s with
  | capture m place =>
    cases hq
    refine ⟨rfl, fun b hb => ⟨q.root, hroot, ?_⟩⟩
    cases hb
    exact q.freeNames_toTree
  | equal e place => exact ⟨rfl, fun b hb => by cases hb⟩
  | tag c place => exact ⟨rfl, fun b hb => by cases hb⟩

theorem assignments_names (h : Pattern.AllBoundAt config ps params) :
    ((Pattern.stepsAll ps).filterMap Step.assignment?).map Prod.fst = Pattern.capturesAll ps := by
  rw [List.map_filterMap, Pattern.capturesAll]
  exact List.filterMap_congr fun s hs => (assignment_spec h hs).1

theorem assignments_values (h : Pattern.AllBoundAt config ps params)
    (hn : n ∉ params.map (·.name)) {b : String × Tree}
    (hb : b ∈ (Pattern.stepsAll ps).filterMap Step.assignment?) : n ∉ b.2.freeNames := by
  obtain ⟨s, hs, hb⟩ := List.mem_filterMap.mp hb
  obtain ⟨a, ha, hfree⟩ := (assignment_spec h hs).2 b hb
  rw [hfree, List.mem_singleton]
  rintro rfl
  exact hn (List.mem_map_of_mem ha)

/-! ## Free names of reduced trees -/

/-- The strays of a piece of syntax are free in its tree, unless they are placeholders, and no other
name that is not in scope is. -/
def Stray (n : String) (free strays placeholders : List String) : Prop :=
  (n ∈ free → n ∈ strays) ∧ (n ∉ placeholders → n ∈ strays → n ∈ free)

theorem stray_nil {placeholders : List String} : Stray n [] [] placeholders :=
  ⟨id, fun _ => id⟩

theorem Stray.append {f f' t t' p p' : List String} (h : Stray n f t p) (h' : Stray n f' t' p') :
    Stray n (f ++ f') (t ++ t') (p ++ p') := by
  constructor
  · intro hn
    exact List.mem_append.mpr ((List.mem_append.mp hn).imp h.1 h'.1)
  · intro hp hn
    rw [List.mem_append, not_or] at hp
    exact List.mem_append.mpr ((List.mem_append.mp hn).imp (h.2 hp.1) (h'.2 hp.2))

theorem Stray.filter {f t p : List String} {keep : String → Bool}
    (h : keep n = true → Stray n f t p) : Stray n (f.filter keep) (t.filter keep) p := by
  constructor
  · intro hn
    obtain ⟨hmem, hkeep⟩ := List.mem_filter.mp hn
    exact List.mem_filter.mpr ⟨(h hkeep).1 hmem, hkeep⟩
  · intro hp hn
    obtain ⟨hmem, hkeep⟩ := List.mem_filter.mp hn
    exact List.mem_filter.mpr ⟨(h hkeep).2 hp hmem, hkeep⟩

theorem Expr.length_loweredAll (es : List Expr) : (Expr.loweredAll es).length = es.length := by
  induction es with
  | nil => rfl
  | cons e es ih => rw [Expr.loweredAll, List.length_cons, List.length_cons, ih]

/-- The strays of a clause and of those behind it, put together from its parts. -/
theorem Stray.clause {c : ClauseState} {cs : List ClauseState} {fallback : Tree}
    {conditions body rest p p' : List String} {tested : Bool} (hc : c.conditions ≠ [] ↔ tested = true)
    (hconditions : (∃ t ∈ c.conditions, n ∈ t.freeNames) ↔ n ∈ conditions)
    (hbody : Stray n c.toTree.freeNames body p)
    (hrest : Stray n (ClauseState.chain fallback cs).freeNames rest p') :
    Stray n (ClauseState.chain fallback (c :: cs)).freeNames
      (conditions ++ body ++ if tested then rest else []) (p ++ p') := by
  have htail : n ∈ (if tested then rest else []) ↔ tested = true ∧ n ∈ rest := by
    cases tested <;> simp
  rw [Stray, Tree.mem_freeNames_chain_cons, hconditions, hc, List.mem_append, List.mem_append, htail,
    List.mem_append, or_assoc]
  constructor
  · exact Or.imp_right (Or.imp hbody.1 (And.imp_right hrest.1))
  · intro hp
    rw [not_or] at hp
    exact Or.imp_right (Or.imp (hbody.2 hp.1) (And.imp_right (hrest.2 hp.2)))

/-- The strays of a match, put together from those of its scrutinees and of its clauses. -/
theorem Stray.letAll {names : List String} {values : List Tree} {body : Tree}
    {strays strays' p p' : List String} (hlen : names.length = values.length)
    (hvalues : Stray n (Tree.freeNamesAll values) strays p)
    (hbody : n ∉ names → Stray n body.freeNames strays' p') :
    Stray n (Tree.letAll (names.zip values) body).freeNames (strays ++ strays') (p ++ (names ++ p')) := by
  have hnames : (names.zip values).map Prod.fst = names := List.map_fst_zip (Nat.le_of_eq hlen)
  have hmap : (names.zip values).map Prod.snd = values := List.map_snd_zip (Nat.le_of_eq hlen.symm)
  constructor
  · intro hmem
    rcases Tree.of_mem_freeNames_letAll hmem with ⟨b, hb, hfree⟩ | ⟨hfree, hunbound⟩
    · have hmem := Tree.mem_freeNamesAll.mpr ⟨b.2, (List.of_mem_zip hb).2, hfree⟩
      exact List.mem_append_left _ (hvalues.1 hmem)
    · rw [hnames] at hunbound
      exact List.mem_append_right _ ((hbody hunbound).1 hfree)
  · intro hp hmem
    rw [List.mem_append, List.mem_append, not_or, not_or] at hp
    obtain ⟨hps, hunbound, hpcs⟩ := hp
    rw [Tree.mem_freeNames_letAll (by rw [hnames]; exact hunbound)]
    rcases List.mem_append.mp hmem with hmem | hmem
    · obtain ⟨t, ht, hfree⟩ := Tree.mem_freeNamesAll.mp (hvalues.2 hps hmem)
      rw [← hmap] at ht
      obtain ⟨b, hb, rfl⟩ := List.mem_map.mp ht
      exact .inl ⟨b, hb, hfree⟩
    · exact .inr ((hbody hunbound).2 hpcs hmem)

mutual

theorem Expr.stray : ∀ {e : Expr} {known : List String}, e.Bound config →
    e.reports decls known = [] → ¬ InScope decls known n →
    Stray n e.lowered.freeNames e.strays e.placeholders
  | .literal _ _, known, _, _, _ => stray_nil
  | .name _ m, known, _, h, hn => by
    rw [Expr.reports] at h
    refine ⟨fun hmem => ?_, fun _ hmem => by cases hmem⟩
    cases List.mem_singleton.mp hmem
    exact absurd (inScope_of_missing h) hn
  | .call _ callee args, known, ⟨hcallee, hargs⟩, h, hn => by
    rw [Expr.reports, List.append_eq_nil_iff] at h
    rw [Expr.lowered, Tree.freeNames, Expr.strays, Expr.placeholders]
    exact (Expr.stray hcallee h.1 hn).append (Expr.strayAll hargs h.2 hn)
  | .cond _ c t e, known, ⟨hc, ht, he⟩, h, hn => by
    rw [Expr.reports, List.append_eq_nil_iff, List.append_eq_nil_iff] at h
    rw [Expr.lowered, Tree.freeNames, Expr.strays, Expr.placeholders]
    exact ((Expr.stray hc h.1.1 hn).append (Expr.stray ht h.1.2 hn)).append (Expr.stray he h.2 hn)
  | .letIn _ m _ value body, known, ⟨hvalue, hbody⟩, h, hn => by
    rw [Expr.reports, List.append_eq_nil_iff] at h
    rw [Expr.lowered, Tree.freeNames, Expr.strays, Expr.placeholders]
    refine (Expr.stray hvalue h.1 hn).append (.filter fun hkeep => ?_)
    have hne : n ≠ m := of_decide_eq_true hkeep
    refine Expr.stray hbody h.2 fun hscope => ?_
    rcases inScope_cons.mp hscope with hm | hscope
    · exact hne hm
    · exact hn hscope
  | .access _ value f _, known, hvalue, h, hn => by
    rw [Expr.Bound] at hvalue
    rw [Expr.reports] at h
    rw [Expr.lowered, Tree.freeNames, Expr.strays, Expr.placeholders]
    exact Expr.stray hvalue h hn
  | .matching s scrutinees ⟨name, ns, params, result, clauses⟩, known, ⟨hscrutinees, hclauses⟩, h,
      hn => by
    rw [Expr.reports, List.append_eq_nil_iff, List.append_eq_nil_iff] at h
    obtain ⟨⟨hcount, hreports⟩, hclauseReports⟩ := h
    have hlen : params.length = scrutinees.length := by
      by_contra hne
      rw [if_neg hne] at hcount
      cases hcount
    have hlen' : (params.map (·.name)).length = (Expr.loweredAll scrutinees).length := by
      rw [List.length_map, Expr.length_loweredAll, hlen]
    rw [Expr.lowered, Expr.strays, Expr.placeholders, Matcher.strays, Matcher.placeholders]
    exact .letAll hlen' (Expr.strayAll hscrutinees hreports hn) fun hunbound =>
      Matcher.clauseStray name hclauses hclauseReports hn hunbound

theorem Expr.strayAll : ∀ {es : List Expr} {known : List String}, Expr.BoundAll config es →
    Expr.reportsAll decls known es = [] → ¬ InScope decls known n →
    Stray n (Tree.freeNamesAll (Expr.loweredAll es)) (Expr.straysAll es) (Expr.placeholdersAll es)
  | [], known, _, _, _ => stray_nil
  | e :: es, known, ⟨he, hes⟩, h, hn => by
    rw [Expr.reportsAll, List.append_eq_nil_iff] at h
    rw [Expr.loweredAll, Tree.freeNamesAll, Expr.straysAll, Expr.placeholdersAll]
    exact (Expr.stray he h.1 hn).append (Expr.strayAll hes h.2 hn)

theorem Matcher.clauseStray : ∀ {cs : List Clause} {params : List Argument} {known : List String}
    (name : String), Matcher.ClausesBound config params cs →
    Matcher.clauseReports decls known cs = [] → ¬ InScope decls known n →
    n ∉ params.map (·.name) →
    Stray n (ClauseState.chain (.fault name) (Matcher.clauseStates cs)).freeNames
      (Matcher.clauseStrays cs) (Matcher.clausePlaceholders cs)
  | [], params, known, name, _, _, _, _ => stray_nil
  | ⟨_, patterns, body⟩ :: cs, params, known, name, ⟨hb, hbody, hcs⟩, h, hn, hparams => by
    rw [Matcher.clauseReports, List.append_eq_nil_iff, List.append_eq_nil_iff] at h
    obtain ⟨⟨hpatterns, hbodyReports⟩, hrest⟩ := h
    rw [Matcher.clauseStates, Matcher.clauseStrays, Matcher.clausePlaceholders]
    refine Stray.clause (conditions_ne_nil hb) ?_ ?_ (Matcher.clauseStray name hcs hrest hn hparams)
    · -- what is out of scope around the clause is in scope at a pattern by a capture before it only
      refine (mem_freeNames_conditions hb hparams).trans ⟨fun ⟨s, hs, hc⟩ => ?_, fun hmem => ?_⟩
      · have hclosed := (Pattern.closed_of_reportsAll hpatterns).mono fun m hm =>
          (Or.inr hm : m ∈ ([] : List String) ∨ InScope decls known m)
        exact Step.mem_strays hclosed hs hc hn
      · exact Step.compared_of_mem_strays hmem
    · -- the body stands behind all captures, for the checker and in the tree
      have hinner (hun : n ∉ Pattern.capturesAll patterns) :
          Stray n body.lowered.freeNames body.strays body.placeholders :=
        Expr.stray hbody hbodyReports fun hscope => (inScope_reverse.mp hscope).elim hun hn
      constructor
      · intro hmem
        rcases Tree.of_mem_freeNames_letAll hmem with ⟨b, hmem, hfree⟩ | ⟨hfree, hun⟩
        · exact absurd hfree (assignments_values hb hparams hmem)
        · have hun : n ∉ Pattern.capturesAll patterns := by
            rw [← assignments_names hb]
            exact hun
          exact List.mem_filter.mpr ⟨(hinner hun).1 hfree, decide_eq_true hun⟩
      · intro hp hmem
        obtain ⟨hmem, hun⟩ := List.mem_filter.mp hmem
        have hun : n ∉ Pattern.capturesAll patterns := of_decide_eq_true hun
        refine (Tree.mem_freeNames_letAll ?_).mpr (.inr ((hinner hun).2 hp hmem))
        rw [← assignments_names hb] at hun
        exact hun

end

/-- What is free in the tree of a matcher without reports, but for its placeholders and what is in
scope around it. -/
theorem Matcher.mem_freeNames_lowered {m : Matcher} (hbound : m.Bound config)
    (hreports : Matcher.clauseReports decls known m.clauses = []) (hn : ¬ InScope decls known n)
    (hfresh : n ∈ m.placeholders → n ∉ m.strays) :
    n ∈ m.lowered.freeNames ∧ n ∉ m.params.map (·.name) ↔ n ∈ m.strays := by
  obtain ⟨name, _, params, _, clauses⟩ := m
  rw [Matcher.placeholders, List.mem_append] at hfresh
  rw [Matcher.strays] at hfresh ⊢
  have hstray (hun : n ∉ params.map (·.name)) :=
    Matcher.clauseStray name hbound hreports hn hun
  constructor
  · rintro ⟨hfree, hun⟩
    exact (hstray hun).1 hfree
  · intro hmem
    have hun : n ∉ params.map (·.name) := fun hp => hfresh (.inl hp) hmem
    exact ⟨(hstray hun).2 (fun hp => hfresh (.inr hp) hmem) hmem, hun⟩

end Clausal
