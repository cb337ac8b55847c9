import Clausal.Config.Reader
import Clausal.Ty.Name
import Clausal.Proofs.Control

/-!
# Names of tuple types

The type of a destructured value is named by a prefix and a number of fields. A number has no dot and no
capital letter, so such a name is a constructor name exactly if its prefix is one. Settings are accepted
for less: there the first character of the prefix counts, and not the first one behind its last dot. The
two agree on prefixes without a dot.
-/
namespace Clausal

/-! ## Names of constructors -/

theorem checkConstrName_eq_ok_iff {name : String} :
    checkConstrName name = .ok () ↔
      ∃ c cs, lastSegment name.toList = c :: cs ∧ Text.isUppercase c = true := by
  rw [checkConstrName]
  cases h : lastSegment name.toList with
  | nil => simp
  | cons c cs => by_cases hc : Text.isUppercase c = true <;> simp [hc]

/-- What is put behind a name and has no dot is put behind its last segment. -/
theorem lastSegment_append {name suffix : List Char} (h : '.' ∉ suffix) :
    lastSegment (name ++ suffix) = lastSegment name ++ suffix := by
  have hsuffix : ∀ c ∈ suffix.reverse, (c != '.') = true := fun c hc =>
    bne_iff_ne.mpr fun he => h (he ▸ List.mem_reverse.mp hc)
  rw [lastSegment, List.reverse_append, List.takeWhile_append_of_pos hsuffix, List.reverse_append,
    List.reverse_reverse, lastSegment]

theorem lastSegment_of_not_mem {name : List Char} (h : '.' ∉ name) : lastSegment name = name := by
  have hbehind : lastSegment ([] ++ name) = lastSegment [] ++ name := lastSegment_append h
  exact hbehind

/-! ## Numbers -/

theorem isDigit_of_mem_toString {n : Nat} {c : Char} (h : c ∈ (toString n).toList) :
    c.isDigit = true := by
  rw [Nat.toString_eq_repr, Nat.toList_repr] at h
  exact Nat.isDigit_of_mem_toDigits (by decide) (by decide) h

theorem toList_toString_ne_nil (n : Nat) : (toString n).toList ≠ [] := by
  rw [Nat.toString_eq_repr, Nat.toList_repr]
  exact Nat.toDigits_ne_nil

/-- No character with the property Uppercase comes before the capital letters. -/
theorem Text.isUppercase_of_lt {c : Char} (h : c.toNat < 0x41) : Text.isUppercase c = false := by
  have hranges : ∀ r ∈ Text.uppercaseRanges, 0x41 ≤ r.1 := by decide +kernel
  rw [Text.isUppercase, Text.CodeRanges.contains, List.any_eq_false]
  intro r hr hin
  rw [Bool.and_eq_true, decide_eq_true_iff] at hin
  have hlow := hranges r hr
  omega

theorem Text.isUppercase_of_isDigit {c : Char} (h : c.isDigit = true) : Text.isUppercase c = false := by
  refine Text.isUppercase_of_lt ?_
  rw [Char.isDigit, Bool.and_eq_true, decide_eq_true_iff, decide_eq_true_iff] at h
  have hle : c.toNat ≤ 57 := h.2
  omega

/-- A number behind a name makes no difference to whether the name is that of a constructor. -/
theorem checkConstrName_number (name : String) (n : Nat) :
    (checkConstrName (name ++ toString n) = .ok () ↔ checkConstrName name = .ok ()) ∧
      (checkConstrName name ≠ .ok () →
        checkConstrName (name ++ toString n) = .error (.notUppercase (name ++ toString n))) := by
  have hdot : '.' ∉ (toString n).toList := fun h => by cases isDigit_of_mem_toString h
  have hsegment : lastSegment (name ++ toString n).toList =
      lastSegment name.toList ++ (toString n).toList := by
    rw [String.toList_append, lastSegment_append hdot]
  cases hname : lastSegment name.toList with
  | nil =>
    -- behind a dot the number stands alone
    obtain ⟨d, ds, hdigits⟩ := List.exists_cons_of_ne_nil (toList_toString_ne_nil n)
    have hd : Text.isUppercase d = false :=
      Text.isUppercase_of_isDigit (isDigit_of_mem_toString (hdigits ▸ List.mem_cons_self))
    rw [hname, List.nil_append, hdigits] at hsegment
    simp only [checkConstrName, hname, hsegment, hd]
    simp
  | cons c cs =>
    rw [hname, List.cons_append] at hsegment
    simp only [checkConstrName, hname, hsegment]
    by_cases hc : Text.isUppercase c = true <;> simp [hc]

/-! ## Settings -/

namespace Config

/-- The settings were validated, by themselves or with the document or file that they are from. -/
inductive Accepted : Config → Prop where
  | validated {given config} : validate given = .ok config → Accepted config
  | document {source config} : ofToml source = .ok config → Accepted config
  | file {content config} : ofFile content = .ok config → Accepted config

variable {config : Config}

theorem upper_of_validate {given : Config} (h : given.validate = .ok config) :
    ∃ c cs, config.tupleTypePrefix.toList = c :: cs ∧ Text.isUppercase c = true := by
  rw [validate] at h
  cases hfront : given.tupleTypePrefix.toList with
  | nil =>
    rw [hfront] at h
    cases h
  | cons c cs =>
    rw [hfront] at h
    dsimp only at h
    split at h
    · cases h
      exact ⟨c, cs, hfront, ‹_›⟩
    · cases h

theorem upper_of_ofToml {source : String} (h : ofToml source = .ok config) :
    ∃ c cs, config.tupleTypePrefix.toList = c :: cs ∧ Text.isUppercase c = true := by
  rw [ofToml] at h
  cases hparse : Toml.parse source with
  | none =>
    rw [hparse] at h
    cases h
  | some es =>
    rw [hparse] at h
    obtain ⟨given, -, h⟩ := exists_of_bind_eq_ok h
    exact upper_of_validate h

/-- Accepted settings have a prefix with an uppercase character in front. -/
theorem Accepted.upper (h : config.Accepted) :
    ∃ c cs, config.tupleTypePrefix.toList = c :: cs ∧ Text.isUppercase c = true := by
  cases h with
  | validated h => exact upper_of_validate h
  | document h => exact upper_of_ofToml h
  | @file content _ h =>
    rw [ofFile] at h
    cases hread : content.bind String.fromUTF8? with
    | none =>
      rw [hread] at h
      cases h
    | some source =>
      rw [hread] at h
      exact upper_of_ofToml h

/-- The type of a destructured value can be built under its name exactly if the prefix that was accepted is
a constructor name by itself; else the name is refused as one that is not upper case. A prefix without a
dot is such a name. One with a dot need not be. -/
theorem tupleTypeName_legal_iff (h : config.Accepted) (fields : List Ty) :
    let name := config.tupleTypeName fields.length
    (Ty.named? name fields = .ok (.named name fields) ↔
      checkConstrName config.tupleTypePrefix = .ok ()) ∧
    (checkConstrName config.tupleTypePrefix ≠ .ok () →
      Ty.named? name fields = .error (.notUppercase name)) ∧
    ('.' ∉ config.tupleTypePrefix.toList → checkConstrName config.tupleTypePrefix = .ok ()) := by
  intro name
  obtain ⟨hiff, hrefused⟩ := checkConstrName_number config.tupleTypePrefix fields.length
  have hnamed : Ty.named? name fields = .ok (.named name fields) ↔ checkConstrName name = .ok () := by
    rw [Ty.named?]
    cases checkConstrName name with
    | error e => exact iff_of_false (fun h => by cases h) (fun h => by cases h)
    | ok u => exact iff_of_true rfl rfl
  refine ⟨hnamed.trans hiff, fun hne => ?_, fun hdot => ?_⟩
  · rw [Ty.named?, show checkConstrName name = _ from hrefused hne]
    rfl
  · obtain ⟨c, cs, hfront, hc⟩ := h.upper
    rw [checkConstrName_eq_ok_iff, lastSegment_of_not_mem hdot]
    exact ⟨c, cs, hfront, hc⟩

/-- A prefix with a capital letter in front and a small one behind its dot. The document is accepted, and
the name of the type of pairs is not. -/
theorem tupleTypeName_legal_iff_qualified :
    let config : Config := { tupleTypePrefix := "Std.tuple" }
    let pair := [Ty.constant "Int", Ty.constant "Bool"]
    ofToml "tuple_type_prefix = \"Std.tuple\"" = .ok config ∧ config.Accepted ∧
      config.tupleTypeName pair.length = "Std.tuple2" ∧
      Ty.named? "Std.tuple2" pair = .error (.notUppercase "Std.tuple2") := by
  intro config pair
  have hread : ofToml "tuple_type_prefix = \"Std.tuple\"" = .ok config := by
    have hvalue : (ofToml "tuple_type_prefix = \"Std.tuple\"").toOption = some config := by
      decide +kernel
    cases hrun : ofToml "tuple_type_prefix = \"Std.tuple\"" with
    | error e =>
      rw [hrun] at hvalue
      cases hvalue
    | ok c =>
      rw [hrun] at hvalue
      exact congrArg Except.ok (Option.some.inj hvalue)
  have haccepted : config.Accepted := .document hread
  have hsegment : lastSegment config.tupleTypePrefix.toList = "tuple".toList := by decide
  have hfront : checkConstrName config.tupleTypePrefix ≠ .ok () := by
    rw [Ne, checkConstrName_eq_ok_iff, hsegment]
    rintro ⟨c, cs, hcons, hc⟩
    cases hcons
    revert hc
    decide +kernel
  have hname : config.tupleTypeName pair.length = "Std.tuple2" := by decide
  have hrefused := (tupleTypeName_legal_iff haccepted pair).2.1 hfront
  rw [hname] at hrefused
  exact ⟨hread, haccepted, hname, hrefused⟩

end Config
end Clausal
