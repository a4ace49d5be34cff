import ContentClasses.Proofs.Identifiers

/-!
# Words in identifiers

An identifier is made of the words of its text and of nothing else. `Identifier.made_of_words` says
how: every word gets a capital in front, and of several words those in capitals are lowered behind
it. So an identifier keeps all letters and digits but for their case, and neither what stands
between the words nor the case of a word in capitals among several can be told from it.
-/

namespace ContentClasses

namespace Identifier

/-- A word with a capital among its letters, and without a small one. -/
def InCapitals (word : List Char) : Prop :=
  (∃ c ∈ word, c.isUpper) ∧ ∀ c ∈ word, ¬ c.isLower

/-- A word is in capitals when it has one and no small letter. -/
lemma isScreaming_iff {word : List Char} : isScreaming word ↔ InCapitals word := by
  rw [isScreaming, InCapitals, Bool.and_eq_true, List.any_eq_true, Bool.not_eq_true',
    List.any_eq_false]

instance (word : List Char) : Decidable (InCapitals word) :=
  decidable_of_iff _ isScreaming_iff

/-- What a word becomes in an identifier that is made of so many words. -/
def part (count : ℕ) : List Char → List Char
  | [] => []
  | c :: cs =>
    c.toUpper :: if 2 ≤ count ∧ InCapitals (c :: cs) then cs.map Char.toLower else cs

variable {text : String} {identifier : Identifier} {word front back : List Char}
  {several : List (List Char)} {count : ℕ}

section Casing

/-- A word alone keeps its case. -/
lemma part_one (word : List Char) : part 1 word = capitalize word := by
  cases word with
  | nil => rfl
  | cons c cs => rw [part, if_neg (by omega), capitalize]

lemma part_of_several (many : 2 ≤ count) (word : List Char) :
    part count word = caseAmongSeveral word := by
  cases word with
  | nil => rw [part, caseAmongSeveral, capitalizeOnly, capitalize, ite_self]
  | cons c cs =>
    rw [part, caseAmongSeveral, capitalizeOnly, capitalize]
    by_cases capitals : InCapitals (c :: cs)
    · rw [if_pos ⟨many, capitals⟩, if_pos (isScreaming_iff.mpr capitals)]
    · rw [if_neg (capitals ∘ And.right), if_neg (capitals ∘ isScreaming_iff.mp)]

/-- The words are put together part by part. -/
lemma joinWords_eq (several : List (List Char)) :
    joinWords several = several.flatMap (part several.length) := by
  match several with
  | [] => rfl
  | [word] => rw [joinWords, List.flatMap_singleton, List.length_singleton, part_one]
  | first :: second :: more =>
    have many : 2 ≤ (first :: second :: more).length := by simp
    exact List.flatMap_congr fun word _ => (part_of_several many word).symm

/-- Only the case of a word changes. -/
lemma map_toLower_part (count : ℕ) (word : List Char) :
    (part count word).map Char.toLower = word.map Char.toLower := by
  cases word with
  | nil => rfl
  | cons c cs =>
    rw [part]
    split <;> simp

/-- Among several words, one in capitals becomes what it becomes in small letters. -/
lemma part_map_toLower (many : 2 ≤ count) (capitals : InCapitals word) :
    part count (word.map Char.toLower) = part count word := by
  cases word with
  | nil => rfl
  | cons c cs =>
    have small : ¬ InCapitals ((c :: cs).map Char.toLower) := by
      rintro ⟨⟨d, mem, upper⟩, -⟩
      obtain ⟨b, -, rfl⟩ := List.mem_map.mp mem
      rw [Char.isUpper_toLower_eq_false] at upper
      cases upper
    rw [List.map_cons] at small ⊢
    rw [part, if_neg (small ∘ And.right), part, if_pos ⟨many, capitals⟩,
      Char.toUpper_toLower_eq_toUpper]

end Casing

/-- An identifier is made of the parts of its text. -/
lemma toList_of_ofText? (h : ofText? text = some identifier) :
    identifier.text.toList = (words text.toList).flatMap (part (words text.toList).length) := by
  rw [← joinWords_eq]
  unfold ofText? at h
  split at h
  case h_1 => cases h
  case h_2 c cs joined =>
    split at h
    case isTrue =>
      cases h
      rw [joined, String.toList_ofList]
    case isFalse => cases h

/-- Texts give the same identifier, or none, where their words are put together to the same. -/
lemma ofText?_congr {other : String}
    (same : (words other.toList).flatMap (part (words other.toList).length) =
      (words text.toList).flatMap (part (words text.toList).length)) :
    ofText? other = ofText? text := by
  rw [← joinWords_eq, ← joinWords_eq] at same
  rw [ofText?, same, ofText?]

/-- A run in small letters is one. -/
lemma IsRun.lowered (run : IsRun front word back) :
    IsRun front (word.map Char.toLower) back where
  full := fun empty => run.full (List.map_eq_nil_iff.mp empty)
  alphanum := by
    rw [List.forall_mem_map]
    exact fun c mem => isAlphanum_toLower (run.alphanum c mem)
  before := run.before
  behind := run.behind

/-- An identifier that a text gives is made of the longest runs of letters and digits in it, of
which there is one row only: in order, each with a capital in front, and lowered behind it where it
is one of several and in capitals. But for case, it is all letters and digits of the text. Any text
with the same runs gives it too, and so does the text with one of several runs in capitals
lowered. -/
theorem made_of_words (h : ofText? text = some identifier) :
    ∃ several, Runs text.toList several ∧
      (∀ others, Runs text.toList others → others = several) ∧
      identifier.text.toList = several.flatMap (part several.length) ∧
      identifier.text.toList.map Char.toLower =
        (text.toList.filter Char.isAlphanum).map Char.toLower ∧
      (∀ other : String, Runs other.toList several → ofText? other = some identifier) ∧
      ∀ (front word back : List Char) (other : String), 2 ≤ several.length →
        text.toList = front ++ word ++ back → IsRun front word back → InCapitals word →
        other.toList = front ++ word.map Char.toLower ++ back →
        ofText? other = some identifier := by
  have runs := runs_words text.toList
  refine ⟨words text.toList, runs, fun others => runs_iff.mp, toList_of_ofText? h, ?_, ?_, ?_⟩
  · calc identifier.text.toList.map Char.toLower
        = (words text.toList).flatMap fun word =>
            (part (words text.toList).length word).map Char.toLower := by
          rw [toList_of_ofText? h, List.map_flatMap]
      _ = (words text.toList).flatMap (List.map Char.toLower) :=
          List.flatMap_congr fun word _ => map_toLower_part _ word
      _ = (words text.toList).flatten.map Char.toLower := by rw [List.map_flatten, List.flatMap]
      _ = (text.toList.filter Char.isAlphanum).map Char.toLower := by rw [runs.flatten_eq]
  · intro other same
    rw [← h]
    apply ofText?_congr
    rw [same.words_eq]
  · intro front word back other many whole run capitals lowered
    rw [← h]
    apply ofText?_congr
    rw [whole, run.words_eq] at many ⊢
    -- The lowered word is a run in the place of the other, so that the number of words is the same.
    have count : (words front ++ word.map Char.toLower :: words back).length =
        (words front ++ word :: words back).length := by
      simp
    rw [lowered, run.lowered.words_eq, count, List.flatMap_append, List.flatMap_append,
      List.flatMap_cons, List.flatMap_cons, part_map_toLower many capitals]

/-- A text with letters between its words that are not ASCII, two words in capitals and one that
starts with a digit. The same words between other characters give its identifier, and so does the
text with a word in capitals lowered. -/
theorem manual_made_of_words :
    ofText? "ÜBER FAQ_Sections—2nd" = some ⟨"BerFaqSections2nd"⟩ ∧
      ofText? "(BER) FAQ/Sections, 2nd." = some ⟨"BerFaqSections2nd"⟩ ∧
      ofText? "ÜBER faq_Sections—2nd" = some ⟨"BerFaqSections2nd"⟩ := by
  have given : ofText? "ÜBER FAQ_Sections—2nd" = some ⟨"BerFaqSections2nd"⟩ := by decide
  obtain ⟨several, runs, -, -, -, same, lowered⟩ := made_of_words given
  obtain rfl := runs_iff.mp runs
  refine ⟨given, same _ (runs_iff.mpr (by decide)), ?_⟩
  have run : IsRun "ÜBER ".toList ['F', 'A', 'Q'] "_Sections—2nd".toList :=
    ⟨by decide, by simp, by simp, by simp⟩
  exact lowered _ _ _ _ (by decide) (by decide) run (by decide) (by decide)

end Identifier

end ContentClasses
