import ContentClasses.Config.Document
import ContentClasses.Proofs.QuotedStrings
import ContentClasses.Toml.Reader

/-!
# Documents that are written and read

A document with a line for every field of a configuration gives the settings of these fields, in
their order and with no others: `settings?_document`.
-/

namespace ContentClasses

namespace Toml
variable {c : Char} {cs text rest : List Char} {value : Value} {key : String}
  {fields : List (String × Value)}

/-- A string starts with a quote of either kind. -/
lemma exists_writeChars (cs : List Char) :
    ∃ q tail, writeChars cs = q :: tail ∧ (q = '\x22' ∨ q = '\x27') := by
  rw [writeChars]
  cases Form.of cs with
  | basic => exact ⟨_, _, rfl, .inl rfl⟩
  | literal => exact ⟨_, _, rfl, .inr rfl⟩
  | basicLines => exact ⟨_, _, rfl, .inl rfl⟩
  | literalLines => exact ⟨_, _, rfl, .inr rfl⟩

/-- A value is written as characters: in front of a line end it is read from them. -/
structure WrittenAs (value : Value) (text : List Char) : Prop where
  starts : ∃ c cs, text = c :: cs ∧ isSpace c = false
  reads (rest : List Char) : value? maxNesting (text ++ '\n' :: rest) = some (value, '\n' :: rest)
  noReturn : '\r' ∉ text

/-- A written text is read back as one value, if no quote follows it. -/
lemma value?_writeChars (room : Nat) (basicNext : rest.head? ≠ some '\x22')
    (literalNext : rest.head? ≠ some '\x27') :
    value? room (writeChars cs ++ rest) = some (.string (String.ofList cs), rest) := by
  have read : string? (writeChars cs ++ rest) = some (cs, rest) :=
    string?_writeChars basicNext literalNext
  obtain ⟨q, tail, starts, quote⟩ := exists_writeChars cs
  rw [starts, List.cons_append] at read ⊢
  obtain rfl | rfl := quote <;> cases room <;> simp [value?, read]

/-- A written text starts with a quote of either kind. -/
lemma exists_writeText (s : String) :
    ∃ q tail, (writeText s).toList = q :: tail ∧ (q = '\x22' ∨ q = '\x27') := by
  rw [writeText, String.toList_ofList]
  exact exists_writeChars s.toList

lemma writtenAs_text (s : String) : WrittenAs (.string s) (writeText s).toList where
  starts := by
    obtain ⟨q, tail, starts, quote⟩ := exists_writeText s
    refine ⟨q, tail, starts, ?_⟩
    obtain rfl | rfl := quote <;> rfl
  reads rest := by
    rw [writeText, String.toList_ofList, value?_writeChars _ (by simp) (by simp),
      String.ofList_toList]
  noReturn := by
    rw [writeText, String.toList_ofList]
    exact return_notMem_writeChars _

lemma writtenAs_bool (b : Bool) : WrittenAs (.bool b) (writeBool b).toList where
  starts := by cases b <;> exact ⟨_, _, rfl, rfl⟩
  reads rest := by cases b <;> rfl
  noReturn := by cases b <;> decide

/-- A list of several strings behind its bracket and the line end there: one to a line. -/
def charsOfItems (texts : List String) : List Char :=
  '\n' :: texts.flatMap fun s => "    ".toList ++ (writeText s).toList ++ [',', '\n']

lemma skipBlanks_writeText (s : String) :
    skipBlanks false ((writeText s).toList ++ rest) = (writeText s).toList ++ rest := by
  obtain ⟨q, tail, starts, quote⟩ := exists_writeText s
  rw [starts, List.cons_append, skipBlanks]
  obtain rfl | rfl := quote <;> rfl

section Items
variable {room : Nat} (s : String)

/-- A written text is read back in front of anything but a quote. -/
lemma value?_writeText (basicNext : c ≠ '\x22') (literalNext : c ≠ '\x27') :
    value? room ((writeText s).toList ++ c :: rest) = some (.string s, c :: rest) := by
  rw [writeText, String.toList_ofList, value?_writeChars, String.ofList_toList]
  · exact fun same => basicNext (Option.some.inj same)
  · exact fun same => literalNext (Option.some.inj same)

lemma writeText_ne_bracket {more : List Char} : (writeText s).toList ++ rest ≠ ']' :: more := by
  obtain ⟨q, tail, starts, quote⟩ := exists_writeText s
  rw [starts]
  intro same
  rw [(List.cons_eq_cons.mp same).1] at quote
  exact absurd quote (by decide)

/-- The last text of a list on one line is followed by the bracket. -/
lemma items?_writeText_last :
    items? (value? room) ((writeText s).toList ++ ']' :: rest) = some ([.string s], rest) := by
  have read : value? room ((writeText s).toList ++ ']' :: rest) = some (.string s, ']' :: rest) :=
    value?_writeText s (by decide) (by decide)
  rw [items?, skipBlanks_writeText]
  split
  case h_1 bracket => exact absurd bracket (writeText_ne_bracket s)
  case h_2 =>
    rw [read]
    rfl

/-- An item with a comma behind it, and blanks and line ends in front. -/
lemma items?_writeText_comma
    (skip : skipBlanks false cs = (writeText s).toList ++ ',' :: rest)
    (shorter : rest.length < cs.length) :
    items? (value? room) cs =
      (items? (value? room) rest).map fun (items, rest) => (.string s :: items, rest) := by
  have read : value? room ((writeText s).toList ++ ',' :: rest) = some (.string s, ',' :: rest) :=
    value?_writeText s (by decide) (by decide)
  rw [items?, skip]
  split
  case h_1 bracket => exact absurd bracket (writeText_ne_bracket s)
  case h_2 =>
    have comma : skipBlanks false (',' :: rest) = ',' :: rest := rfl
    simp only [read, Option.bind_eq_bind, Option.bind_some, comma, if_pos shorter]
    cases items? (value? room) rest <;> rfl

end Items

/-- Each text of a list on several lines stands on its own, with a comma behind it. -/
lemma charsOfItems_cons (s : String) (texts : List String) :
    charsOfItems (s :: texts) =
      '\n' :: ' ' :: ' ' :: ' ' :: ' ' :: ((writeText s).toList ++ ',' :: charsOfItems texts) := by
  simp [charsOfItems]

lemma skipBlanks_indent :
    skipBlanks false ('\n' :: ' ' :: ' ' :: ' ' :: ' ' :: cs) = skipBlanks false cs :=
  rfl

/-- The texts of a list on several lines are read back, the last comma with nothing behind it
included. -/
lemma items?_charsOfItems {room : Nat} (texts : List String) :
    items? (value? room) (charsOfItems texts ++ ']' :: rest) =
      some (texts.map .string, rest) := by
  induction texts with
  | nil =>
    rw [items?]
    rfl
  | cons s texts ih =>
    have chars : charsOfItems (s :: texts) ++ ']' :: rest =
        '\n' :: ' ' :: ' ' :: ' ' :: ' ' :: ((writeText s).toList ++ ',' ::
          (charsOfItems texts ++ ']' :: rest)) := by
      simp only [charsOfItems_cons, List.cons_append, List.append_assoc]
    rw [chars, items?_writeText_comma s (skipBlanks_indent.trans (skipBlanks_writeText s)), ih]
    · rfl
    · simp only [List.length_append, List.length_cons]
      omega

/-- What stands between the brackets of a list of strings. -/
def charsOfTexts : List String → List Char
  | [] => []
  | [s] => (writeText s).toList
  | several => charsOfItems several

/-- A list is written between its brackets. -/
lemma toList_writeTexts (texts : List String) :
    (writeTexts texts).toList = '[' :: (charsOfTexts texts ++ [']']) := by
  obtain - | ⟨s, - | ⟨t, texts⟩⟩ := texts
  · rfl
  · simp [writeTexts, charsOfTexts]
  · have several : charsOfTexts (s :: t :: texts) = charsOfItems (s :: t :: texts) := rfl
    simp [writeTexts, several, charsOfItems, String.toList_join, List.flatMap_map]

/-- The texts of a list are read back in either layout: on one line for up to one text, on several
otherwise. -/
lemma items?_charsOfTexts {room : Nat} (texts : List String) :
    items? (value? room) (charsOfTexts texts ++ ']' :: rest) =
      some (texts.map .string, rest) := by
  match texts with
  | [] =>
    rw [items?]
    rfl
  | [s] => exact items?_writeText_last s
  | s :: t :: texts => exact items?_charsOfItems (s :: t :: texts)

/-- A list of texts is read back from its writing. -/
lemma writtenAs_texts (texts : List String) :
    WrittenAs (.list (texts.map .string)) (writeTexts texts).toList where
  starts := ⟨_, _, toList_writeTexts texts, rfl⟩
  reads rest := by
    rw [toList_writeTexts, List.cons_append, List.append_assoc, List.singleton_append, maxNesting,
      value?, items?_charsOfTexts]
    rfl
  noReturn := by
    have item (s : String) : '\r' ∉ (writeText s).toList := (writtenAs_text s).noReturn
    rw [toList_writeTexts]
    match texts with
    | [] => decide
    | [s] => simp [charsOfTexts, item]
    | s :: t :: texts => simp [charsOfTexts, charsOfItems, item]

/-- A key that needs no quotes. -/
structure IsPlainKey (key : String) : Prop where
  full : key.toList ≠ []
  chars : key.toList.all isKeyChar

lemma IsPlainKey.isKeyChar (plain : IsPlainKey key) : ∀ c ∈ key.toList, isKeyChar c :=
  List.all_eq_true.mp plain.chars

lemma IsPlainKey.exists_cons (plain : IsPlainKey key) :
    ∃ c cs, key.toList = c :: cs ∧ Toml.isKeyChar c := by
  obtain ⟨c, cs, chars⟩ := List.exists_cons_of_ne_nil plain.full
  exact ⟨c, cs, chars, plain.isKeyChar c (by rw [chars]; exact List.mem_cons_self)⟩

lemma ne_of_isKeyChar {d : Char} (own : isKeyChar c) (other : isKeyChar d = false) : c ≠ d := by
  rintro rfl
  rw [own] at other
  cases other

section Lines
variable (plain : IsPlainKey key) (written : WrittenAs value text)

include plain in
lemma skipSpace_of_plain : skipSpace (key.toList ++ rest) = key.toList ++ rest := by
  obtain ⟨c, k, chars, first⟩ := plain.exists_cons
  have blank : c ≠ ' ' := ne_of_isKeyChar first rfl
  have tab : c ≠ '\t' := ne_of_isKeyChar first rfl
  rw [chars]
  exact List.dropWhile_cons_of_neg (by simp [isSpace, blank, tab])

include plain in
/-- A plain key is read up to its equals sign. -/
lemma key?_of_plain :
    key? (key.toList ++ ' ' :: '=' :: rest) = some (([], key), '=' :: rest) := by
  obtain ⟨c, k, chars, first⟩ := plain.exists_cons
  have other (d : Char) (none : isKeyChar d = false) : c ≠ d := ne_of_isKeyChar first none
  have noQuote : lineString? (key.toList ++ ' ' :: '=' :: rest) = none := by
    rw [chars, List.cons_append, lineString?]
    · exact fun _ same => absurd (List.cons_eq_cons.mp same).1 (other _ rfl)
    · exact fun _ same => absurd (List.cons_eq_cons.mp same).1 (other _ rfl)
  have name : name? (key.toList ++ ' ' :: '=' :: rest) = some (key, ' ' :: '=' :: rest) := by
    have front : (key.toList ++ ' ' :: '=' :: rest).takeWhile isKeyChar = key.toList := by
      rw [List.takeWhile_append_of_pos plain.isKeyChar, List.takeWhile_cons_of_neg (by decide),
        List.append_nil]
    have back : (key.toList ++ ' ' :: '=' :: rest).dropWhile isKeyChar = ' ' :: '=' :: rest := by
      rw [List.dropWhile_append_of_pos plain.isKeyChar, List.dropWhile_cons_of_neg (by decide)]
    have full : key.toList.isEmpty = false := List.isEmpty_eq_false_iff.mpr plain.full
    simp only [name?, noQuote, front, back, full, Bool.false_eq_true, if_false,
      String.ofList_toList]
  have space : skipSpace (' ' :: '=' :: rest) = '=' :: rest := rfl
  have names : names? (key.toList ++ ' ' :: '=' :: rest) = some ([key], '=' :: rest) := by
    rw [names?, skipSpace_of_plain plain, name]
    simp [space]
  rw [key?, names]
  rfl

include plain written in
/-- A written field is read back as one assignment, up to the end of its line. -/
lemma statement?_of_written :
    statement? (key.toList ++ ' ' :: '=' :: ' ' :: (text ++ '\n' :: rest)) =
      some (some (.assign [] key value), '\n' :: rest) := by
  obtain ⟨c, k, chars, first⟩ := plain.exists_cons
  have other (d : Char) (none : isKeyChar d = false) : c ≠ d := ne_of_isKeyChar first none
  obtain ⟨d, cs, starts, noSpace⟩ := written.starts
  have space : skipSpace (' ' :: (text ++ '\n' :: rest)) = text ++ '\n' :: rest := by
    rw [starts]
    exact (List.dropWhile_cons_of_pos rfl).trans (List.dropWhile_cons_of_neg (by simp [noSpace]))
  have read : assignment? (value? maxNesting)
      (key.toList ++ ' ' :: '=' :: ' ' :: (text ++ '\n' :: rest)) =
        some (([], key), value, '\n' :: rest) := by
    rw [assignment?, key?_of_plain plain]
    simp [space, written.reads]
  -- No other statement starts with a character of a key.
  rw [chars, List.cons_append] at read ⊢
  rw [statement?]
  · simp [read]
  · nofun
  · exact fun _ same => other '\n' rfl (List.cons_eq_cons.mp same).1
  · exact fun _ same => other '#' rfl (List.cons_eq_cons.mp same).1
  · exact fun _ same => other '[' rfl (List.cons_eq_cons.mp same).1
  · exact fun _ same => other '[' rfl (List.cons_eq_cons.mp same).1

/-- The line of a key and its value. -/
def charsOfLine (key : String) (text : List Char) : List Char :=
  key.toList ++ ' ' :: '=' :: ' ' :: (text ++ ['\n'])

include plain written in
/-- The line of a key and its value is carried out, and the lines behind it after that. -/
lemma lines?_of_written (document : Document) :
    lines? document (charsOfLine key text ++ rest) =
      (document.run (.assign [] key value)).bind (lines? · rest) := by
  have chars : charsOfLine key text ++ rest =
      key.toList ++ ' ' :: '=' :: ' ' :: (text ++ '\n' :: rest) := by
    simp [charsOfLine]
  have full : (charsOfLine key text ++ rest).isEmpty = false := by
    rw [List.isEmpty_eq_false_iff, chars]
    simp
  have shorter : rest.length < (charsOfLine key text ++ rest).length := by
    rw [chars]
    simp only [List.length_append, List.length_cons]
    omega
  have lineEnd : lineEnd? ('\n' :: rest) = some rest := rfl
  rw [lines?, full, if_neg Bool.false_ne_true, chars, skipSpace_of_plain plain,
    statement?_of_written plain written]
  simp only [Option.bind_eq_bind, Option.bind_some, lineEnd, ← chars, if_pos shorter]

end Lines

/-- Keys and their values, with a line for each of them. -/
inductive WrittenLines : List (String × Value) → List Char → Prop where
  | nil : WrittenLines [] []
  | cons {key : String} {value : Value} {text : List Char} {fields : List (String × Value)}
    {more : List Char} (plain : IsPlainKey key) (written : WrittenAs value text)
    (rest : WrittenLines fields more) :
    WrittenLines ((key, value) :: fields) (charsOfLine key text ++ more)

namespace Document
variable {seen : List (String × Value)}

/-- The document in which each key has its value. -/
def ofFields (fields : List (String × Value)) : Document where
  entries := fields.map fun field => (field.1, .value field.2)
  current := []

/-- To assign a key that is not there yet puts the field at the end. -/
lemma run_assign (free : key ∉ seen.map Prod.fst) :
    (ofFields seen).run (.assign [] key value) = some (ofFields (seen ++ [(key, value)])) := by
  have absent : (ofFields seen).entries.lookup key = none := by
    rw [List.lookup_eq_none_iff]
    rintro entry mem
    obtain ⟨field, there, rfl⟩ := List.mem_map.mp mem
    exact bne_iff_ne.mpr fun same => free (List.mem_map.mpr ⟨field, there, same.symm⟩)
  have inserted : (ofFields seen).entries.insertAt [] key value =
      some (ofFields (seen ++ [(key, value)])).entries := by
    rw [Entries.insertAt, Entries.update, List.isEmpty_nil, Bool.true_or, if_pos rfl,
      Entries.insert, absent]
    simp [ofFields]
  have updated : Entries.update false (fun _ entries => entries.insertAt [] key value) [] .header
      (ofFields seen).entries = some (ofFields (seen ++ [(key, value)])).entries := by
    rw [Entries.update, inserted]
  rw [run]
  simp only [ofFields] at updated ⊢
  rw [updated]
  rfl

/-- The values of a document of plain fields are these fields. -/
lemma valuesOf_ofFields : valuesOf (ofFields fields).entries = fields := by
  induction fields with
  | nil => rfl
  | cons field fields ih =>
    obtain ⟨key, value⟩ := field
    exact congrArg ((key, value) :: ·) ih

end Document

open Document (ofFields)

/-- Lines with distinct keys are read back one after the other, behind the fields that were read
before. -/
lemma WrittenLines.lines?_eq {seen : List (String × Value)} (written : WrittenLines fields text)
    (distinct : ((seen ++ fields).map Prod.fst).Nodup) :
    lines? (ofFields seen) text = some (ofFields (seen ++ fields)) := by
  induction written generalizing seen with
  | nil =>
    rw [lines?, List.append_nil]
    rfl
  | @cons key value text fields more plain written _ ih =>
    have free : key ∉ seen.map Prod.fst := by
      rw [List.map_append, List.nodup_append] at distinct
      exact fun mem => distinct.2.2 key mem key List.mem_cons_self rfl
    have split : seen ++ (key, value) :: fields = seen ++ [(key, value)] ++ fields := by simp
    rw [split] at distinct ⊢
    rw [lines?_of_written plain written, Document.run_assign free, Option.bind_some, ih distinct]

/-- A text without carriage returns keeps its line ends. -/
lemma unifyLineEnds?_eq (noReturn : '\r' ∉ cs) : unifyLineEnds? cs = some cs := by
  induction cs with
  | nil => rfl
  | cons c cs ih =>
    rw [List.mem_cons, not_or] at noReturn
    rw [unifyLineEnds?, if_neg (Ne.symm noReturn.1), ih noReturn.2]
    · rfl
    · exact fun _ same => absurd same.symm noReturn.1

lemma WrittenLines.noReturn (written : WrittenLines fields text) : '\r' ∉ text := by
  induction written with
  | nil => exact List.not_mem_nil
  | @cons key value text fields more plain written _ ih =>
    have key : '\r' ∉ key.toList := fun mem => absurd (plain.isKeyChar _ mem) (by decide)
    simp [charsOfLine, key, written.noReturn, ih]

/-- There is no byte order mark in front of a key. -/
lemma WrittenLines.withoutMark_eq (written : WrittenLines fields text) :
    withoutMark text = text := by
  cases written with
  | nil => rfl
  | @cons key value text fields more plain written rest =>
    obtain ⟨c, k, chars, first⟩ := plain.exists_cons
    rw [charsOfLine, chars, List.cons_append, List.cons_append, withoutMark]
    exact fun _ same => ne_of_isKeyChar first rfl (List.cons_eq_cons.mp same).1

/-- A text with a line for each of some distinct keys gives their values. -/
lemma settings?_of_written {text : String} (written : WrittenLines fields text.toList)
    (distinct : (fields.map Prod.fst).Nodup) :
    settings? text = (ofFields fields).settings? := by
  have lines : lines? (ofFields []) text.toList = some (ofFields ([] ++ fields)) :=
    written.lines?_eq distinct
  have start : Document.empty = ofFields [] := rfl
  rw [settings?, written.withoutMark_eq, unifyLineEnds?_eq written.noReturn]
  simp only [Option.bind_eq_bind, Option.bind_some, start, lines, List.nil_append]

end Toml

namespace Config

/-- The fields of a configuration by key, with their values. -/
def savedFields (config : Config) : List (String × Toml.Value) :=
  [("project_id", .string config.projectId),
    ("namespace", .string config.namespaceName),
    ("output_dir", .string config.outputDir.text),
    ("schema_dir", .string config.schemaDir.text),
    ("file_name_suffix", .string config.fileNameSuffix),
    ("management_api", .bool config.managementApi),
    ("extended_models", .bool config.extendedModels),
    ("structured_model", .list (config.structuredModel.map .string)),
    ("with_type_provider", .bool config.withTypeProvider)]

/-- The settings of a configuration. -/
def savedSettings (config : Config) : Settings :=
  [("project_id", .text config.projectId),
    ("namespace", .text config.namespaceName),
    ("output_dir", .text config.outputDir.text),
    ("schema_dir", .text config.schemaDir.text),
    ("file_name_suffix", .text config.fileNameSuffix),
    ("management_api", .bool config.managementApi),
    ("extended_models", .bool config.extendedModels),
    ("structured_model", .list (config.structuredModel.map .text)),
    ("with_type_provider", .bool config.withTypeProvider)]

variable (config : Config)

/-- The document is written line by line, one for each field. -/
lemma writtenLines_document : Toml.WrittenLines config.savedFields config.document.toList := by
  have line (key value : String) :
      (Toml.line key value).toList = Toml.charsOfLine key value.toList := by
    simp [Toml.line, Toml.charsOfLine]
  rw [document, String.toList_join]
  simp only [List.flatMap_cons, List.flatMap_nil, line]
  exact .cons ⟨by decide, by decide⟩ (Toml.writtenAs_text _) <|
    .cons ⟨by decide, by decide⟩ (Toml.writtenAs_text _) <|
    .cons ⟨by decide, by decide⟩ (Toml.writtenAs_text _) <|
    .cons ⟨by decide, by decide⟩ (Toml.writtenAs_text _) <|
    .cons ⟨by decide, by decide⟩ (Toml.writtenAs_text _) <|
    .cons ⟨by decide, by decide⟩ (Toml.writtenAs_bool _) <|
    .cons ⟨by decide, by decide⟩ (Toml.writtenAs_bool _) <|
    .cons ⟨by decide, by decide⟩ (Toml.writtenAs_texts _) <|
    .cons ⟨by decide, by decide⟩ (Toml.writtenAs_bool _) .nil

/-- The fields that are saved give the settings that stand for the configuration. -/
lemma settings?_savedFields :
    (Toml.Document.ofFields config.savedFields).settings? = some config.savedSettings := by
  rw [Toml.Document.settings?, Toml.Document.valuesOf_ofFields, savedFields, savedSettings]
  have items (texts : List String) :
      Toml.Value.settingsOfItems? (texts.map .string) = some (texts.map .text) := by
    induction texts with
    | nil => simp [Toml.Value.settingsOfItems?]
    | cons s texts ih => simp [Toml.Value.settingsOfItems?, Toml.Value.toSetting?, ih]
  simp [Toml.Value.toSetting?, Toml.Value.settingsOfEntries?, items, Toml.Value.momentName]

/-- The document of a configuration gives the settings of its fields. -/
theorem settings?_document : Toml.settings? config.document = some config.savedSettings := by
  have distinct : (config.savedFields.map Prod.fst).Nodup := by
    simp only [savedFields, List.map_cons, List.map_nil]
    decide
  rw [Toml.settings?_of_written config.writtenLines_document distinct, settings?_savedFields]

end Config

end ContentClasses
