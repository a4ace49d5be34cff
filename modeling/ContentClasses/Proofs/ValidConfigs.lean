import ContentClasses.Proofs.Identifiers
import ContentClasses.Proofs.KindNames

/-!
# Valid configurations

A configuration is valid when its namespace is a row of identifiers with a dot between each two and
it names no structured kind that is not known. The check accepts exactly these configurations,
`Config.validate_eq_ok_iff`, and `Config.validate_eq_error_iff` says with which error it refuses the
others.
-/

namespace ContentClasses

/-- The characters of an identifier: a letter, and letters and digits behind it. -/
inductive Identifier.IsSpelling : List Char → Prop where
  | mk {c : Char} {cs : List Char} (letter : c.isAlpha) (others : ∀ d ∈ cs, d.isAlphanum) :
      IsSpelling (c :: cs)

/-- The characters of a namespace: those of one or more identifiers with a dot between each two. -/
inductive Config.IsNamespace : List Char → Prop where
  | one {part : List Char} (spelled : Identifier.IsSpelling part) : IsNamespace part
  | dot {part rest : List Char} (spelled : Identifier.IsSpelling part) (more : IsNamespace rest) :
      IsNamespace (part ++ '.' :: rest)

/-- A letter is not blank. -/
lemma Text.isBlank_of_isAlpha {c : Char} (letter : c.isAlpha) : isBlank c = false := by
  have code : c.val.toNat = c.toNat := rfl
  simp only [Char.isAlpha, Char.isUpper, Char.isLower, Bool.or_eq_true, Bool.and_eq_true,
    decide_eq_true_eq, UInt32.le_iff_toNat_le, Char.reduceVal, UInt32.reduceToNat, code] at letter
  simp only [isBlank, Bool.or_eq_false_iff, Bool.and_eq_false_iff, decide_eq_false_iff_not,
    beq_eq_false_iff_ne]
  omega

namespace Identifier
variable {part : List Char}

/-- The check of identifiers accepts exactly their spellings. -/
lemma isValid_iff : isValid (String.ofList part) ↔ IsSpelling part := by
  rw [isValid, String.toList_ofList]
  constructor
  · intro valid
    cases part with
    | nil => cases valid
    | cons c cs =>
      obtain ⟨letter, others⟩ := Bool.and_eq_true_iff.mp valid
      exact ⟨letter, List.all_eq_true.mp others⟩
  · rintro ⟨letter, others⟩
    exact Bool.and_eq_true_iff.mpr ⟨letter, List.all_eq_true.mpr others⟩

/-- A spelling is made of letters and digits. -/
lemma IsSpelling.isAlphanum (spelled : IsSpelling part) : ∀ c ∈ part, c.isAlphanum := by
  obtain ⟨letter, others⟩ := spelled
  rw [List.forall_mem_cons]
  refine ⟨?_, others⟩
  rw [Char.isAlphanum, letter]
  rfl

lemma IsSpelling.dot_notMem (spelled : IsSpelling part) : '.' ∉ part := by
  intro mem
  cases spelled.isAlphanum '.' mem

lemma IsSpelling.exists_isAlpha (spelled : IsSpelling part) : ∃ c ∈ part, c.isAlpha := by
  obtain ⟨letter, _⟩ := spelled
  exact ⟨_, List.mem_cons_self, letter⟩

end Identifier

namespace Config

open Identifier (IsSpelling)
open StructuredKinds (IsKnown)
open Text (trim)

section Namespaces
variable {text : List Char} {parts : List (List Char)} {name : String}

/-- Identifiers that are joined with dots are a namespace. -/
lemma IsNamespace.intercalate (full : parts ≠ []) (spelled : ∀ part ∈ parts, IsSpelling part) :
    IsNamespace (['.'].intercalate parts) := by
  induction parts with
  | nil => exact absurd rfl full
  | cons part parts ih =>
    rw [List.forall_mem_cons] at spelled
    cases parts with
    | nil =>
      rw [List.intercalate_singleton]
      exact .one spelled.1
    | cons next parts =>
      rw [List.intercalate_cons_cons, List.append_assoc]
      exact .dot spelled.1 (ih (List.cons_ne_nil next parts) spelled.2)

/-- A text is a namespace exactly when what stands between its dots are identifiers. -/
lemma isNamespace_iff_splitOn :
    IsNamespace text ↔ ∀ part ∈ text.splitOn '.', IsSpelling part := by
  constructor
  · intro namespaced
    induction namespaced with
    | one spelled =>
      rw [List.splitOn_eq_singleton spelled.dot_notMem]
      exact List.forall_mem_singleton.mpr spelled
    | dot spelled _ ih =>
      rw [List.splitOn_append_cons_self_of_not_mem spelled.dot_notMem]
      exact List.forall_mem_cons.mpr ⟨spelled, ih⟩
  · intro spelled
    -- The grammar is read off the parts by putting them together again.
    have whole : ['.'].intercalate (text.splitOn '.') = text := List.intercalate_splitOn '.'
    rw [← whole]
    exact .intercalate (List.splitOn_ne_nil '.' text) spelled

/-- The check of namespaces accepts exactly their grammar. -/
lemma isNamespace_iff : isNamespace name ↔ IsNamespace name.toList := by
  rw [isNamespace, isNamespace_iff_splitOn, Text.split, List.all_map, List.all_eq_true]
  exact forall₂_congr fun _ _ => Identifier.isValid_iff

/-- There is nothing in a namespace but dots, letters and digits. -/
lemma IsNamespace.eq_dot_or_isAlphanum (namespaced : IsNamespace text) {c : Char} (mem : c ∈ text) :
    c = '.' ∨ c.isAlphanum := by
  induction namespaced with
  | one spelled => exact .inr (spelled.isAlphanum c mem)
  | dot spelled _ ih =>
    obtain front | back := List.mem_append.mp mem
    · exact .inr (spelled.isAlphanum c front)
    · obtain same | later := List.mem_cons.mp back
      · exact .inl same
      · exact ih later

/-- A namespace has a letter. -/
lemma IsNamespace.exists_isAlpha (namespaced : IsNamespace text) : ∃ c ∈ text, c.isAlpha := by
  cases namespaced with
  | one spelled => exact spelled.exists_isAlpha
  | dot spelled _ =>
    obtain ⟨c, mem, letter⟩ := spelled.exists_isAlpha
    exact ⟨c, List.mem_append_left _ mem, letter⟩

/-- There is a letter in a namespace, so that it is not blank. -/
lemma IsNamespace.not_isBlankText (namespaced : IsNamespace name.toList) :
    ¬ Text.isBlankText name := by
  intro blank
  obtain ⟨c, mem, letter⟩ := namespaced.exists_isAlpha
  have isBlank := List.all_eq_true.mp blank c mem
  rw [Text.isBlank_of_isAlpha letter] at isBlank
  cases isBlank

end Namespaces

section Checks
variable {config : Config} {e : Error}

/-- A configuration has a namespace, and names no structured kind that is not known. -/
@[mk_iff]
structure Valid (config : Config) : Prop where
  namespaced : IsNamespace config.namespaceName.toList
  known : ∀ name ∈ config.structuredModel, IsKnown (trim name)

/-- The options of a configuration, with the structured kinds that its words ask for. -/
def optionsOfWords (config : Config) : Options where
  dialect := config.dialect
  structured := StructuredKinds.ofWords (config.structuredModel.map trim)
  typedLinks := config.extendedModels

/-- Why a configuration is refused: its namespace is blank, or is malformed, or else there is a
first name of a structured kind that is not known. -/
inductive Refused (config : Config) : Error → Prop where
  | blank (blank : Text.isBlankText config.namespaceName) : Refused config .blankNamespace
  | malformed (full : ¬ Text.isBlankText config.namespaceName)
      (malformed : ¬ IsNamespace config.namespaceName.toList) :
      Refused config (.malformedNamespace config.namespaceName)
  | unknownKind {front back : List String} {name : String}
      (namespaced : IsNamespace config.namespaceName.toList)
      (split : config.structuredModel = front ++ name :: back)
      (known : ∀ other ∈ front, IsKnown (trim other)) (unknown : ¬ IsKnown (trim name)) :
      Refused config (.unknownStructuredKind (trim name))

/-- With a namespace, a configuration is as valid as its names of structured kinds are. -/
lemma validate_of_namespaced (namespaced : IsNamespace config.namespaceName.toList) :
    config.validate = (StructuredKinds.ofNames config.structuredModel).map fun _ => () := by
  rw [validate, if_neg namespaced.not_isBlankText, isNamespace_iff.mpr namespaced]
  rfl

/-- A valid configuration passes the check. -/
lemma Valid.validate_eq (valid : config.Valid) : config.validate = .ok () := by
  rw [validate_of_namespaced valid.namespaced, StructuredKinds.ofNames_of_known valid.known]
  rfl

/-- A refused one ends with the error of the first thing that is wrong. -/
lemma Refused.validate_eq (refused : config.Refused e) : config.validate = .error e := by
  cases refused with
  | blank blank =>
    rw [validate, if_pos blank]
    rfl
  | malformed full malformed =>
    have unsplit : isNamespace config.namespaceName = false :=
      Bool.eq_false_iff.mpr (mt isNamespace_iff.mp malformed)
    rw [validate, if_neg full, unsplit]
    rfl
  | unknownKind namespaced split known unknown =>
    rw [validate_of_namespaced namespaced, split, StructuredKinds.ofNames_of_unknown known unknown]
    rfl

/-- Every configuration is valid or refused. -/
lemma valid_or_refused (config : Config) : config.Valid ∨ ∃ e, config.Refused e := by
  by_cases blank : Text.isBlankText config.namespaceName
  · exact .inr ⟨_, .blank blank⟩
  by_cases namespaced : IsNamespace config.namespaceName.toList
  case neg => exact .inr ⟨_, .malformed blank namespaced⟩
  by_cases known : ∀ name ∈ config.structuredModel, IsKnown (trim name)
  · exact .inl ⟨namespaced, known⟩
  · push Not at known
    obtain ⟨front, name, back, split, before, unknown⟩ := exists_first known
    exact .inr ⟨_, .unknownKind namespaced split (fun other mem => not_not.mp (before other mem))
      unknown⟩

/-- The check accepts the valid configurations and no others. -/
lemma validate_eq_ok_iff : config.validate = .ok () ↔ config.Valid := by
  refine ⟨fun accepted => ?_, Valid.validate_eq⟩
  obtain valid | ⟨e, refused⟩ := config.valid_or_refused
  · exact valid
  · cases accepted.symm.trans refused.validate_eq

/-- A configuration that is not accepted is refused for the first reason that there is. -/
lemma validate_eq_error_iff : config.validate = .error e ↔ config.Refused e := by
  refine ⟨fun failed => ?_, Refused.validate_eq⟩
  obtain valid | ⟨e', refused⟩ := config.valid_or_refused
  · cases failed.symm.trans valid.validate_eq
  · cases failed.symm.trans refused.validate_eq
    exact refused

/-- What a configuration is refused for is worded as an argument that is not valid. -/
lemma Refused.message_eq (refused : config.Refused e) :
    ∃ reason, e.message = "Invalid argument: " ++ reason := by
  cases refused with
  | blank => exact ⟨"namespace must not be empty", by decide⟩
  | malformed =>
    have words : "Invalid argument: namespace '" = "Invalid argument: " ++ "namespace '" := by
      decide
    refine ⟨"namespace '" ++ config.namespaceName ++ "' is not a valid dotted identifier", ?_⟩
    show "Invalid argument: namespace '" ++ config.namespaceName ++ _ = _
    rw [words, String.append_assoc, String.append_assoc, String.append_assoc]
  | @unknownKind _ _ name =>
    have words : "Invalid argument: unknown structured model flag '" =
        "Invalid argument: " ++ "unknown structured model flag '" := by
      decide
    refine ⟨"unknown structured model flag '" ++ trim name ++ "'", ?_⟩
    show "Invalid argument: unknown structured model flag '" ++ trim name ++ _ = _
    rw [words, String.append_assoc, String.append_assoc, String.append_assoc]

/-- The options of a valid configuration are those of its words. -/
lemma Valid.options_eq (valid : config.Valid) : config.options = .ok config.optionsOfWords := by
  rw [options, StructuredKinds.ofNames_of_known valid.known]
  rfl

end Checks

end Config

end ContentClasses
