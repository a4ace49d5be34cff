import ContentClasses.Proofs.Words
import Mathlib

/-!
# Identifiers

An identifier that a text gives is a capital with ASCII letters and digits behind it, whatever the
text holds besides its words. `Identifier.isPascal_of_ofText?` follows the text from its words, over
the case of each, to the words put together. Different texts may give the same identifier:
`Identifier.Apart` says of some codenames that they do not.

The lemmas about capital and small letters (`Char.isUpper_toUpper_eq_isAlpha` and its neighbours)
are in no part of the library that can be imported alone, so that the whole of it is imported here.
-/

namespace ContentClasses

/-- What a list without repetitions gives is free of them exactly when no two of its elements give
the same. -/
lemma nodup_filterMap_iff {α β : Type} {f : α → Option β} {as : List α} (nodup : as.Nodup) :
    (as.filterMap f).Nodup ↔ ∀ a ∈ as, ∀ b ∈ as, ∀ x ∈ f a, x ∈ f b → a = b := by
  rw [List.Nodup, List.pairwise_filterMap]
  constructor
  · intro apart a ha b hb x hx hx'
    by_contra different
    have symmetric : Std.Symm fun a b => ∀ x ∈ f a, ∀ y ∈ f b, x ≠ y :=
      ⟨fun a b h x hx y hy => (h y hy x hx).symm⟩
    exact apart.forall ha hb different x hx x hx' rfl
  · intro inj
    apply nodup.pairwise_of_forall_ne
    intro a ha b hb different x hx y hy same
    rw [← same] at hy
    exact different (inj a ha b hb x hx hy)

namespace Identifier
variable {text : String} {identifier : Identifier} {word : List Char} {c : Char}

/-- The identifier is a capital with ASCII letters and digits behind it. -/
def IsPascal (identifier : Identifier) : Prop :=
  ∃ c cs, identifier.text.toList = c :: cs ∧ c.isUpper ∧ ∀ d ∈ cs, d.isAlphanum

/-- An identifier is told by its text. -/
lemma text_injective : Function.Injective Identifier.text := by
  rintro ⟨a⟩ ⟨b⟩ same
  exact congrArg mk same

/-- Different identifiers stay different with the same letters behind them. -/
lemma append_injective {letters : String} :
    Function.Injective fun identifier : Identifier => identifier.append letters := by
  rintro ⟨a⟩ ⟨b⟩ same
  have texts : a ++ letters = b ++ letters := congrArg Identifier.text same
  exact congrArg mk ((String.append_left_inj letters).mp texts)

/-- The capital of a letter or digit is one. -/
lemma isAlphanum_toUpper (h : c.isAlphanum) : c.toUpper.isAlphanum := by
  by_cases lower : c.isLower
  · have letter : c.isAlpha := by simp [Char.isAlpha, lower]
    simp [Char.isAlphanum, letter]
  · rw [Char.toUpper_eq_of_not_isLower lower]
    exact h

/-- The small form of a letter or digit is one. -/
lemma isAlphanum_toLower (h : c.isAlphanum) : c.toLower.isAlphanum := by
  by_cases upper : c.isUpper
  · have letter : c.isAlpha := by simp [Char.isAlpha, upper]
    simp [Char.isAlphanum, letter]
  · rw [Char.toLower_eq_of_not_isUpper upper]
    exact h

/-- A letter is no digit. -/
lemma isAlpha_iff_of_isAlphanum (alphanum : c.isAlphanum) :
    c.isAlpha ↔ ¬ c.isDigit := by
  have either : c.isAlpha ∨ c.isDigit := Bool.or_eq_true_iff.mp alphanum
  have apart : c.isDigit → ¬ c.isAlpha := by
    simp only [Char.isDigit, Char.isAlpha, Char.isUpper, Char.isLower, Bool.and_eq_true,
      Bool.or_eq_true, decide_eq_true_eq, UInt32.le_iff_toNat_le, Char.reduceVal,
      UInt32.reduceToNat]
    omega
  tauto

/-- A word with a capital in front is still made of letters and digits. -/
lemma isAlphanum_of_mem_capitalize (h : ∀ c ∈ word, c.isAlphanum) :
    ∀ c ∈ capitalize word, c.isAlphanum := by
  cases word with
  | nil => nofun
  | cons d ds =>
    rw [capitalize, List.forall_mem_cons]
    exact ⟨isAlphanum_toUpper (h d List.mem_cons_self),
      fun c hc => h c (List.mem_cons_of_mem _ hc)⟩

/-- A word among several is still made of letters and digits. -/
lemma isAlphanum_of_mem_caseAmongSeveral (h : ∀ c ∈ word, c.isAlphanum) :
    ∀ c ∈ caseAmongSeveral word, c.isAlphanum := by
  unfold caseAmongSeveral
  split
  case isFalse => exact isAlphanum_of_mem_capitalize h
  case isTrue =>
    cases word with
    | nil => nofun
    | cons d ds =>
      rw [capitalizeOnly, List.forall_mem_cons, List.forall_mem_map]
      exact ⟨isAlphanum_toUpper (h d List.mem_cons_self),
        fun c hc => isAlphanum_toLower (h c (List.mem_cons_of_mem _ hc))⟩

/-- Words put together are made of letters and digits. -/
lemma isAlphanum_of_mem_joinWords {several : List (List Char)}
    (h : ∀ word ∈ several, ∀ c ∈ word, c.isAlphanum) :
    ∀ c ∈ joinWords several, c.isAlphanum := by
  unfold joinWords
  split
  case h_1 => nofun
  case h_2 word => exact isAlphanum_of_mem_capitalize (h word List.mem_cons_self)
  case h_3 =>
    intro c hc
    obtain ⟨word, mem, inside⟩ := List.mem_flatMap.mp hc
    exact isAlphanum_of_mem_caseAmongSeveral (h word mem) c inside

/-- What words that are put together start with is a capital, or a digit. -/
lemma exists_toUpper_of_joinWords {several : List (List Char)} {cs : List Char}
    (full : ∀ word ∈ several, word ≠ []) (h : joinWords several = c :: cs) :
    ∃ d : Char, c = d.toUpper := by
  unfold joinWords at h
  -- A single word and the first of several words are cased by different functions.
  split at h
  case h_1 => cases h
  case h_2 word =>
    cases word with
    | nil => cases h
    | cons d ds =>
      cases h
      exact ⟨d, rfl⟩
  case h_3 =>
    cases several with
    | nil => cases h
    | cons word rest =>
      cases word with
      | nil => exact absurd rfl (full [] List.mem_cons_self)
      | cons d ds =>
        rw [List.flatMap_cons, caseAmongSeveral] at h
        split at h
        case isTrue =>
          cases h
          exact ⟨d, rfl⟩
        case isFalse =>
          cases h
          exact ⟨d, rfl⟩

/-- An identifier that a text gives is a capital with letters and digits behind it. -/
lemma isPascal_of_ofText? (h : ofText? text = some identifier) : identifier.IsPascal := by
  unfold ofText? at h
  split at h
  case h_1 => cases h
  case h_2 c cs joined =>
    have alphanum : ∀ d ∈ c :: cs, d.isAlphanum := by
      rw [← joined]
      exact isAlphanum_of_mem_joinWords fun word mem => (isAlphanum_of_mem_words mem).2
    split at h
    case isFalse => cases h
    case isTrue letter =>
      cases h
      refine ⟨c, cs, String.toList_ofList, ?_, fun d hd => alphanum d (List.mem_cons_of_mem _ hd)⟩
      obtain ⟨d, rfl⟩ := exists_toUpper_of_joinWords
        (fun word mem => (isAlphanum_of_mem_words mem).1) joined
      rw [Char.isUpper_toUpper_eq_isAlpha, ← Char.isAlpha_toUpper_eq_isAlpha]
      exact letter

lemma head?_capitalize (word : List Char) :
    (capitalize word).head? = word.head?.map Char.toUpper := by
  cases word <;> rfl

lemma head?_caseAmongSeveral (word : List Char) :
    (caseAmongSeveral word).head? = word.head?.map Char.toUpper := by
  unfold caseAmongSeveral
  split
  case isTrue => cases word <;> rfl
  case isFalse => exact head?_capitalize word

/-- The words put together start with the capital of the first letter of the first word. -/
lemma head?_joinWords {several : List (List Char)} (full : ∀ word ∈ several, word ≠ []) :
    (joinWords several).head? = (several.head?.bind List.head?).map Char.toUpper := by
  unfold joinWords
  split
  case h_1 => rfl
  case h_2 word => exact head?_capitalize word
  case h_3 =>
    cases several with
    | nil => rfl
    | cons word rest =>
      obtain ⟨d, ds, rfl⟩ := List.exists_cons_of_ne_nil (full word List.mem_cons_self)
      rw [List.flatMap_cons, List.head?_append, head?_caseAmongSeveral]
      rfl

/-- A text gives an identifier exactly when the first of its letters and digits is a letter. -/
lemma ofText?_isSome_iff :
    (ofText? text).isSome ↔ ∃ c, text.toList.find? Char.isAlphanum = some c ∧ c.isAlpha := by
  have first : (joinWords (words text.toList)).head? =
      (text.toList.find? Char.isAlphanum).map Char.toUpper := by
    rw [head?_joinWords fun word mem => (isAlphanum_of_mem_words mem).1, words_head]
  unfold ofText?
  split
  case h_1 empty =>
    rw [empty, List.head?_nil, eq_comm, Option.map_eq_none_iff] at first
    simp [first]
  case h_2 c cs whole =>
    rw [whole, List.head?_cons, eq_comm, Option.map_eq_some_iff] at first
    obtain ⟨d, found, rfl⟩ := first
    rw [found, Char.isAlpha_toUpper_eq_isAlpha]
    split
    case isTrue letter => simpa using letter
    case isFalse other => simpa using other

/-- What is added behind a text that gives an identifier leaves it with one. -/
lemma ofText?_append_isSome (named : (ofText? text).isSome) (more : String) :
    (ofText? (text ++ more)).isSome := by
  obtain ⟨c, found, letter⟩ := ofText?_isSome_iff.mp named
  refine ofText?_isSome_iff.mpr ⟨c, ?_, letter⟩
  rw [String.toList_append, List.find?_append, found, Option.some_or]

namespace IsPascal

/-- All characters of the identifier are letters and digits. -/
lemma isAlphanum (pascal : identifier.IsPascal) : ∀ c ∈ identifier.text.toList, c.isAlphanum := by
  obtain ⟨c, cs, text, capital, rest⟩ := pascal
  rw [text, List.forall_mem_cons]
  refine ⟨?_, rest⟩
  rw [Char.isAlphanum, Char.isAlpha, capital]
  rfl

lemma notMem (pascal : identifier.IsPascal) (other : c.isAlphanum = false) :
    c ∉ identifier.text.toList := by
  intro mem
  rw [pascal.isAlphanum c mem] at other
  cases other

lemma ne_nil (pascal : identifier.IsPascal) : identifier.text.toList ≠ [] := by
  obtain ⟨c, cs, text, -⟩ := pascal
  rw [text]
  exact List.cons_ne_nil c cs

/-- The identifier passes the check of identifiers. -/
lemma isValid (pascal : identifier.IsPascal) : Identifier.isValid identifier.text := by
  obtain ⟨c, cs, text, capital, rest⟩ := pascal
  have letter : c.isAlpha := by
    rw [Char.isAlpha, capital]
    rfl
  rw [Identifier.isValid, text]
  exact Bool.and_eq_true_iff.mpr ⟨letter, List.all_eq_true.mpr rest⟩

/-- Letters and digits behind the identifier leave it one. -/
lemma append (pascal : identifier.IsPascal) {letters : String}
    (alphanum : letters.toList.all Char.isAlphanum) : (identifier.append letters).IsPascal := by
  obtain ⟨c, cs, text, capital, rest⟩ := pascal
  refine ⟨c, cs ++ letters.toList, ?_, capital, ?_⟩
  · rw [Identifier.append, String.toList_append, text, List.cons_append]
  · intro d mem
    obtain mem | mem := List.mem_append.mp mem
    · exact rest d mem
    · exact List.all_eq_true.mp alphanum d mem

end IsPascal

section Codenames
variable {codenames : List String}

/-- The names that codenames give, in order. -/
def namesOf (codenames : List String) : List String :=
  (codenames.filterMap ofText?).map Identifier.text

/-- One of the codenames gives this identifier. -/
def Given (codenames : List String) (identifier : Identifier) : Prop :=
  ∃ a ∈ codenames, ofText? a = some identifier

instance : Decidable (Given codenames identifier) :=
  inferInstanceAs (Decidable (∃ a ∈ codenames, _))

/-- The codenames keep their identifiers apart: different ones never give the same. -/
def Apart (codenames : List String) : Prop :=
  ∀ a ∈ codenames, ∀ b ∈ codenames, ∀ name ∈ ofText? a, name ∈ ofText? b → a = b

instance : Decidable (Apart codenames) :=
  inferInstanceAs (Decidable (∀ a ∈ codenames, _))

/-- The names that the codenames give are those of their identifiers. -/
lemma mem_namesOf : identifier.text ∈ namesOf codenames ↔ Given codenames identifier := by
  rw [namesOf, List.mem_map_of_injective text_injective, List.mem_filterMap, Given]

/-- The names of distinct codenames are distinct exactly when the codenames keep them apart. -/
lemma namesOf_nodup_iff (distinct : codenames.Nodup) :
    (namesOf codenames).Nodup ↔ Apart codenames := by
  rw [namesOf, List.nodup_map_iff text_injective, nodup_filterMap_iff distinct, Apart]

end Codenames

end Identifier

end ContentClasses
