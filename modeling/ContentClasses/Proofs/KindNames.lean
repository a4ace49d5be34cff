import ContentClasses.Proofs.SettingSources
import Mathlib.Data.List.TakeWhile

/-!
# Names of structured kinds

A row of names asks for the union of what its words ask for, and the first word that is not known is
an error: `StructuredKinds.ofNames_union`. So the order of the names does not count, nor do
repetitions, blank names and the blank characters around a name, and names without a comma may as
well be given as one text with commas between them.
-/

namespace ContentClasses

namespace Text
variable {front back cs : List Char} {name padded : String}

/-- Blank characters around others are cut off with them. -/
lemma trimChars_pad (front_blank : ∀ c ∈ front, isBlank c) (back_blank : ∀ c ∈ back, isBlank c) :
    trimChars (front ++ (cs ++ back)) = trimChars cs := by
  have back_gone : back.dropWhile isBlank = [] := List.dropWhile_eq_nil_iff.mpr back_blank
  have back_first : ∀ c ∈ back.reverse, isBlank c :=
    fun c mem => back_blank c (List.mem_reverse.mp mem)
  rw [trimChars, trimChars, List.dropWhile_append_of_pos front_blank, List.dropWhile_append]
  split
  case isTrue none => rw [back_gone, List.isEmpty_iff.mp none]
  case isFalse => rw [List.reverse_append, List.dropWhile_append_of_pos back_first]

/-- A name with blank characters around it. -/
def Padded (name padded : String) : Prop :=
  ∃ front back, isBlankText front ∧ isBlankText back ∧ padded = front ++ name ++ back

lemma Padded.trim_eq (pads : Padded name padded) : trim padded = trim name := by
  obtain ⟨front, back, front_blank, back_blank, rfl⟩ := pads
  rw [trim, trim, String.toList_append, String.toList_append, List.append_assoc,
    trimChars_pad (List.all_eq_true.mp front_blank) (List.all_eq_true.mp back_blank)]

end Text

namespace StructuredKinds

open Text (trim Padded)

variable {front back names xs ys words others : List String} {name word : String}
  {kinds f g : StructuredKinds}

section Words

/-- The words for all kinds at once. -/
def allWords : List String :=
  ["True", "true", "All", "all"]

/-- The words for rich text. -/
def richTextWords : List String :=
  ["RichText", "rich_text"]

/-- The words for dates. -/
def dateTimeWords : List String :=
  ["DateTime", "date_time"]

/-- The words for linked items. -/
def linkedItemsWords : List String :=
  ["ModularContent", "modular_content", "LinkedItems", "linked_items"]

/-- A word asks for some kind, or is empty and asks for nothing. -/
def IsKnown (word : String) : Prop :=
  word = "" ∨ word ∈ allWords ++ richTextWords ++ dateTimeWords ++ linkedItemsWords

instance : DecidablePred IsKnown :=
  fun word => inferInstanceAs (Decidable (word = "" ∨ word ∈ _))

/-- The union of what some words ask for: each member for which there is a word. -/
def ofWords (words : List String) : StructuredKinds where
  all := words.any (allWords.contains ·)
  richText := words.any (richTextWords.contains ·)
  dateTime := words.any (dateTimeWords.contains ·)
  linkedItems := words.any (linkedItemsWords.contains ·)

/-- The kinds of two rows of names are put together. -/
lemma ofWords_append : ofWords (words ++ others) = ofWords words ∪ ofWords others := by
  simp only [ofWords, List.any_append]
  rfl

/-- Only the words that are there count, and the empty word does not. -/
lemma ofWords_congr (same : ∀ word ≠ "", word ∈ words ↔ word ∈ others) :
    ofWords words = ofWords others := by
  have any_congr (list : List String) (full : "" ∉ list) :
      words.any (list.contains ·) = others.any (list.contains ·) := by
    rw [Bool.eq_iff_iff, List.any_eq_true, List.any_eq_true]
    refine exists_congr fun word => and_congr_left fun mem => same word ?_
    rintro rfl
    exact full (List.contains_iff_mem.mp mem)
  simp only [ofWords]
  rw [any_congr allWords (by decide), any_congr richTextWords (by decide),
    any_congr dateTimeWords (by decide), any_congr linkedItemsWords (by decide)]

lemma ofWord?_of_known (known : IsKnown word) : ofWord? word = some (ofWords [word]) := by
  have all : ∀ word ∈ "" :: (allWords ++ richTextWords ++ dateTimeWords ++ linkedItemsWords),
      ofWord? word = some (ofWords [word]) := by decide
  exact all word (List.mem_cons.mpr known)

lemma ofWord?_of_unknown (unknown : ¬ IsKnown word) : ofWord? word = none := by
  unfold ofWord?
  split
  case h_14 => rfl
  all_goals exact absurd (by decide) unknown

end Words

/-- A known name is accepted with blanks around it. -/
lemma ofName_of_known (known : IsKnown (trim name)) : ofName name = .ok (ofWords [trim name]) := by
  rw [ofName, ofWord?_of_known known]

/-- An unknown name is refused, and the error tells it without the blanks. -/
lemma ofName_of_unknown (unknown : ¬ IsKnown (trim name)) :
    ofName name = .error (.unknownStructuredKind (trim name)) := by
  rw [ofName, ofWord?_of_unknown unknown]

/-- Known names stand for all their kinds together. -/
lemma ofNames_of_known (known : ∀ name ∈ names, IsKnown (trim name)) :
    ofNames names = .ok (ofWords (names.map trim)) := by
  induction names with
  | nil => rfl
  | cons name names ih =>
    rw [List.forall_mem_cons] at known
    have both : ofWords ([trim name] ++ names.map trim) =
        ofWords [trim name] ∪ ofWords (names.map trim) := ofWords_append
    rw [ofNames, ofName_of_known known.1, ih known.2]
    exact congrArg Except.ok both.symm

/-- The first word that is not known is the error. -/
lemma ofNames_of_unknown (known : ∀ name ∈ front, IsKnown (trim name))
    (unknown : ¬ IsKnown (trim name)) :
    ofNames (front ++ name :: back) = .error (.unknownStructuredKind (trim name)) := by
  induction front with
  | nil =>
    rw [List.nil_append, ofNames, ofName_of_unknown unknown]
    rfl
  | cons other front ih =>
    rw [List.forall_mem_cons] at known
    rw [List.cons_append, ofNames, ofName_of_known known.1, ih known.2]
    rfl

/-- Names are accepted when all of them are known. -/
lemma ofNames_eq_ok :
    ofNames names = .ok kinds ↔
      (∀ name ∈ names, IsKnown (trim name)) ∧ kinds = ofWords (names.map trim) := by
  constructor
  · intro done
    have known : ∀ name ∈ names, IsKnown (trim name) := by
      by_contra some
      push Not at some
      obtain ⟨front, name, back, rfl, before, unknown⟩ := exists_first some
      have front_known : ∀ other ∈ front, IsKnown (trim other) :=
        fun other mem => not_not.mp (before other mem)
      cases done.symm.trans (ofNames_of_unknown front_known unknown)
    exact ⟨known, Except.ok.inj (done.symm.trans (ofNames_of_known known))⟩
  · rintro ⟨known, rfl⟩
    exact ofNames_of_known known

/-- Names are refused when one of them is unknown. -/
lemma ofNames_fails_iff :
    (∃ e, ofNames names = .error e) ↔ ∃ name ∈ names, ¬ IsKnown (trim name) := by
  constructor
  · rintro ⟨e, failed⟩
    by_contra none
    push Not at none
    cases failed.symm.trans (ofNames_of_known none)
  · intro some
    -- The first unknown name is the one that is refused.
    obtain ⟨front, name, back, rfl, before, unknown⟩ := exists_first some
    exact ⟨_, ofNames_of_unknown (fun other mem => not_not.mp (before other mem)) unknown⟩

lemma ofNames_append (first : ofNames xs = .ok f) (second : ofNames ys = .ok g) :
    ofNames (xs ++ ys) = .ok (f ∪ g) := by
  obtain ⟨known, rfl⟩ := ofNames_eq_ok.mp first
  obtain ⟨known', rfl⟩ := ofNames_eq_ok.mp second
  rw [← ofWords_append, ← List.map_append]
  exact ofNames_of_known (List.forall_mem_append.mpr ⟨known, known'⟩)

/-- Two rows of names hold the same words, in whatever order, number and company of blank names. -/
def SameWords (xs ys : List String) : Prop :=
  ∀ word ≠ "", word ∈ xs.map trim ↔ word ∈ ys.map trim

/-- Neither the order of the names nor repetitions count. -/
lemma SameWords.ofNames_eq (same : SameWords xs ys) (first : ofNames xs = .ok f) :
    ofNames ys = .ok f := by
  obtain ⟨known, rfl⟩ := ofNames_eq_ok.mp first
  rw [ofWords_congr same]
  refine ofNames_of_known fun name mem => ?_
  by_cases empty : trim name = ""
  · exact .inl empty
  · obtain ⟨other, there, eq⟩ := List.mem_map.mp ((same _ empty).mpr (List.mem_map_of_mem mem))
    rw [← eq]
    exact known other there

/-- Only the words of the names count. -/
lemma ofNames_congr (same : xs.map trim = ys.map trim) : ofNames xs = ofNames ys := by
  induction xs generalizing ys with
  | nil => rw [List.map_eq_nil_iff.mp same.symm]
  | cons name names ih =>
    obtain ⟨other, others, rfl, first, rest⟩ := List.map_eq_cons_iff.mp same.symm
    rw [ofNames, ofNames, ofName, ofName, first, ih rest.symm]

/-- Blanks around the names do not count. -/
lemma ofNames_padded (pads : List.Forall₂ Padded xs ys) : ofNames ys = ofNames xs := by
  refine ofNames_congr ?_
  induction pads with
  | nil => rfl
  | cons first _ ih => rw [List.map_cons, List.map_cons, first.trim_eq, ih]

/-- Names with commas between them are read as the list of the names. -/
lemma ofText_intercalate (plain : ∀ name ∈ names, ',' ∉ name.toList) :
    ofText (",".intercalate names) = ofNames names := by
  cases names with
  | nil => rfl
  | cons name names =>
    rw [ofText, split_intercalate (List.cons_ne_nil name names) plain]

/-- The union of two sets applies to what one of them applies to. -/
lemma appliesTo_union (kind : ElementKind) :
    (f ∪ g).appliesTo kind = (f.appliesTo kind || g.appliesTo kind) := by
  have both (member : StructuredKinds → Bool)
      (each : member (f ∪ g) = (member f || member g)) :
      ((f ∪ g).all || member (f ∪ g)) = ((f.all || member f) || (g.all || member g)) := by
    rw [each, show (f ∪ g).all = (f.all || g.all) from rfl]
    ac_rfl
  cases kind with
  | richText => exact both (·.richText) rfl
  | dateTime => exact both (·.dateTime) rfl
  | linkedItems => exact both (·.linkedItems) rfl
  | _ => rfl

/-- A row of names fails exactly when one of its words is not known, with the first of these as the
error, and otherwise gives the union of what its words ask for. So two rows give the union of both,
rows with the same words give the same, blank characters around the names do not count, and names
without a comma may be joined by commas. A union applies to a kind exactly when one of both sets
does. -/
theorem ofNames_union :
    (∀ names, (∃ e, ofNames names = .error e) ↔ ∃ name ∈ names, ¬ IsKnown (trim name)) ∧
    (∀ front name back, (∀ other ∈ front, IsKnown (trim other)) → ¬ IsKnown (trim name) →
      ofNames (front ++ name :: back) = .error (.unknownStructuredKind (trim name))) ∧
    (∀ names, (∀ name ∈ names, IsKnown (trim name)) →
      ofNames names = .ok (ofWords (names.map trim))) ∧
    (∀ xs ys f g, ofNames xs = .ok f → ofNames ys = .ok g → ofNames (xs ++ ys) = .ok (f ∪ g)) ∧
    (∀ xs ys f, SameWords xs ys → ofNames xs = .ok f → ofNames ys = .ok f) ∧
    (∀ xs ys, List.Forall₂ Padded xs ys → ofNames ys = ofNames xs) ∧
    (∀ names, (∀ name ∈ names, ',' ∉ name.toList) →
      ofText (",".intercalate names) = ofNames names) ∧
    ∀ (f g : StructuredKinds) (kind : ElementKind),
      (f ∪ g).appliesTo kind ↔ f.appliesTo kind ∨ g.appliesTo kind := by
  refine ⟨fun _ => ofNames_fails_iff, fun _ _ _ => ofNames_of_unknown,
    fun _ => ofNames_of_known, fun _ _ _ _ => ofNames_append,
    fun _ _ _ same => same.ofNames_eq, fun _ _ => ofNames_padded,
    fun _ => ofText_intercalate, fun f g kind => ?_⟩
  rw [appliesTo_union, Bool.or_eq_true]

/-- Two rows with the same two words, one as it comes from a text with commas; and a row with two
words that are not known. -/
theorem words_asked_for :
    let both : StructuredKinds := { all := true, richText := true }
    ofNames [" RichText", "", "True\u3000"] = .ok both ∧
      SameWords [" RichText", "", "True\u3000"] ["True", "RichText", "True"] ∧
      ofNames ["True", "RichText", "True"] = .ok both ∧
      ofText " RichText,,True\u3000" = .ok both ∧
      List.Forall₂ Padded ["RichText"] [" RichText"] ∧
      ofNames [" RichText"] = ofNames ["RichText"] ∧
      (∃ e, ofNames ["All", " Sparkles ", "Glitter"] = .error e) ∧
      ofNames ["All", " Sparkles ", "Glitter"] = .error (.unknownStructuredKind "Sparkles") ∧
      both.appliesTo .dateTime := by
  intro both
  obtain ⟨fails, first, reads, together, same, pads, joined, union⟩ := ofNames_union
  have front : ofNames [" RichText", ""] = .ok { richText := true } := reads _ (by decide)
  have back : ofNames ["True\u3000"] = .ok { all := true } := reads _ (by decide)
  have read : ofNames [" RichText", "", "True\u3000"] = .ok both := together _ _ _ _ front back
  have words : SameWords [" RichText", "", "True\u3000"] ["True", "RichText", "True"] := by
    have cut : [" RichText", "", "True\u3000"].map trim = ["RichText", "", "True"] ∧
        ["True", "RichText", "True"].map trim = ["True", "RichText", "True"] := by decide
    intro word full
    rw [cut.1, cut.2]
    simp only [List.mem_cons, List.not_mem_nil, or_false, full, false_or]
    tauto
  have text : ofText " RichText,,True\u3000" = .ok both := by
    rw [← read, ← joined _ (by decide)]
    decide
  have padded : List.Forall₂ Padded ["RichText"] [" RichText"] :=
    .cons ⟨" ", "", by decide, by decide, by decide⟩ .nil
  refine ⟨read, words, same _ _ _ words read, text, padded, pads _ _ padded, ?_, ?_, ?_⟩
  · exact (fails _).mpr ⟨" Sparkles ", by decide, by decide⟩
  · exact first ["All"] " Sparkles " ["Glitter"] (by decide) (by decide)
  · exact (union { all := true } { richText := true } .dateTime).mpr (.inl (by decide))

end StructuredKinds

end ContentClasses
