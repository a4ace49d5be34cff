import ContentClasses.Proofs.Identifiers
import ContentClasses.Proofs.Links

/-!
# Identifiers of identifiers

Which texts give an identifier, and which identifiers are given at all:
`Identifier.image_of_ofText`. What a text gives is a single word with a capital in front, and that
gives itself again: a word alone keeps its case, so that what was lowered among several words stays
as it is.
-/

namespace ContentClasses

namespace Identifier
variable {text : String} {identifier : Identifier}

/-- A capital with letters and digits behind it is one word, which is left as it is. -/
lemma IsPascal.ofText?_eq (pascal : identifier.IsPascal) :
    ofText? identifier.text = some identifier := by
  have alone : words identifier.text.toList = [identifier.text.toList] :=
    words_of_alphanum pascal.ne_nil pascal.isAlphanum
  obtain ⟨c, cs, text, capital, -⟩ := pascal
  have kept : c.toUpper = c := Char.toUpper_eq_of_not_isLower (Char.not_isLower_of_isUpper capital)
  have letter : c.isAlpha := by
    rw [Char.isAlpha, capital]
    rfl
  have joined : joinWords (words identifier.text.toList) = c :: cs := by
    rw [alone, joinWords, text, capitalize, kept]
  rw [ofText?, joined]
  show (if c.isAlpha then some (mk (String.ofList (c :: cs))) else none) = _
  rw [if_pos letter, ← text, String.ofList_toList]

/-- An identifier is given by some text exactly when it is a capital with letters and digits behind
it, and then it is given by itself. -/
lemma given_tfae (identifier : Identifier) :
    [∃ text, ofText text = .ok identifier, identifier.IsPascal,
      ofText identifier.text = .ok identifier].TFAE := by
  tfae_have 1 → 2 := by
    rintro ⟨text, given⟩
    exact isPascal_of_ofText? (ofText_eq_ok.mp given)
  tfae_have 2 → 3 := fun pascal => ofText_eq_ok.mpr pascal.ofText?_eq
  tfae_have 3 → 1 := fun given => ⟨_, given⟩
  tfae_finish

/-- A text gives an identifier exactly when its first letter or digit is a letter. -/
lemma ofText_succeeds_iff :
    (∃ identifier, ofText text = .ok identifier) ↔ ∃ c, IsFirst text c ∧ c.isAlpha := by
  simp only [ofText_eq_ok, isFirst_iff, ← Option.isSome_iff_exists, ofText?_isSome_iff]

/-- Without an identifier, the text is in the error as it stands. -/
lemma ofText_fails_iff :
    ofText text = .error (.invalidIdentifier text) ↔ ¬ ∃ c, IsFirst text c ∧ c.isAlpha := by
  rw [← ofText_succeeds_iff]
  cases given : ofText text with
  | ok identifier => simp
  | error err =>
    rw [ofText_eq_error given]
    simp

/-- A text gives an identifier exactly when the first of its letters and digits is a letter, and
otherwise fails with the text as it stands. What is given by some text are the capitals with letters
and digits behind them, and these are the texts that give themselves. So an identifier that a text
gives is valid and gives itself. -/
theorem image_of_ofText :
    (∀ text, (∃ identifier, ofText text = .ok identifier) ↔ ∃ c, IsFirst text c ∧ c.isAlpha) ∧
    (∀ text, ofText text = .error (.invalidIdentifier text) ↔
      ¬ ∃ c, IsFirst text c ∧ c.isAlpha) ∧
    (∀ text : String, [∃ source, ofText source = .ok ⟨text⟩, IsPascal ⟨text⟩,
      ofText text = .ok ⟨text⟩].TFAE) ∧
    ∀ text identifier, ofText text = .ok identifier →
      ofText identifier.text = .ok identifier ∧ isValid identifier.text := by
  refine ⟨fun _ => ofText_succeeds_iff, fun _ => ofText_fails_iff, fun text => given_tfae ⟨text⟩,
    fun text identifier given => ?_⟩
  have pascal : identifier.IsPascal := isPascal_of_ofText? (ofText_eq_ok.mp given)
  exact ⟨ofText_eq_ok.mpr pascal.ofText?_eq, pascal.isValid⟩

/-- Two words of which one is a single capital: the identifier has two capitals in front and is not
lowered when it is read as one word. -/
theorem plan_given_again :
    ofText "a PLAN, b" = .ok ⟨"APlanB"⟩ ∧ ofText "APlanB" = .ok ⟨"APlanB"⟩ ∧ isValid "APlanB" := by
  have given : ofText "a PLAN, b" = .ok ⟨"APlanB"⟩ := by decide
  exact ⟨given, image_of_ofText.2.2.2 _ _ given⟩

end Identifier

end ContentClasses
