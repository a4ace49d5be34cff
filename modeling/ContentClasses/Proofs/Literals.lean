import ContentClasses.Proofs.Declarations
import Mathlib.Data.List.TakeWhile

/-!
# Regular literals

What C# allows between the quotes of a regular string literal, what the text between them stands
for, and where a line of a source has such a text. `regular_escape_iff` says which texts are written
as regular literals: escaping does away with quotes, backslashes and most new lines, but not with
all of them.
-/

namespace ContentClasses.CSharp

/-- The letters of the simple escapes of C#. -/
def simpleEscapes : List Char :=
  ['\x27', '\x22', '\x5c', '0', 'a', 'b', 'f', 'n', 'r', 't', 'v']

/-- The new lines of C#: the line feed, the carriage return, the next line, the line separator and
the paragraph separator. -/
def newLines : List Char :=
  ['\n', '\r', '\u0085', '\u2028', '\u2029']

/-- The new lines of C# that stand in a literal as they are. -/
def rawNewLines : List Char :=
  ['\u0085', '\u2028', '\u2029']

/-- What may stand between the quotes of a regular literal: simple escapes, and characters that
stand for themselves, which a quote, a backslash and the forbidden ones do not. -/
inductive Regular (forbidden : List Char) : List Char → Prop where
  | nil : Regular forbidden []
  | simple {letter : Char} {cs : List Char} (letter_mem : letter ∈ simpleEscapes)
      (rest : Regular forbidden cs) : Regular forbidden ('\x5c' :: letter :: cs)
  | plain {c : Char} {cs : List Char} (quote : c ≠ '\x22') (backslash : c ≠ '\x5c')
      (allowed : c ∉ forbidden) (rest : Regular forbidden cs) : Regular forbidden (c :: cs)

/-- The character that the escape with a letter stands for, among those that are written. -/
def unescapeLetter? : Char → Option Char
  | '\x5c' => some '\x5c'
  | '\x22' => some '\x22'
  | 'n' => some '\n'
  | 'r' => some '\r'
  | 't' => some '\t'
  | _ => none

/-- The characters that the text between two quotes stands for. A quote of its own in it would be
the end of the literal. -/
def unescape? : List Char → Option (List Char)
  | [] => some []
  | '\x5c' :: letter :: cs => do return (← unescapeLetter? letter) :: (← unescape? cs)
  | c :: cs => if c ∈ ['\x5c', '\x22'] then none else (unescape? cs).map (c :: ·)

/-- What stands behind the first quote. -/
def behindQuote? (cs : List Char) : Option (List Char) :=
  (cs.dropWhile (· ≠ '\x22')).tail?

/-- The text between the first and the last quote of a line. -/
def quoted? (line : String) : Option (List Char) :=
  (behindQuote? line.toList).bind fun rest => (behindQuote? rest.reverse).map List.reverse

/-- What stands between quotes in the lines of a source, in order. -/
def literals (source : String) : List (List Char) :=
  (Text.split '\n' source).filterMap quoted?

section Escapes
variable {forbidden cs : List Char} {c d letter : Char}

/-- A simple escape in front of a body leaves it as regular as it is. -/
lemma regular_simple_iff (simple : letter ∈ simpleEscapes) :
    Regular forbidden ('\x5c' :: letter :: cs) ↔ Regular forbidden cs := by
  constructor
  · intro regular
    cases regular with
    | simple _ rest => exact rest
    | plain _ backslash => exact absurd rfl backslash
  · exact .simple simple

/-- A plain character in front of a body leaves it regular, unless the character is forbidden. -/
lemma regular_plain_iff (quote : c ≠ '\x22') (backslash : c ≠ '\x5c') :
    Regular forbidden (c :: cs) ↔ c ∉ forbidden ∧ Regular forbidden cs := by
  constructor
  · intro regular
    cases regular with
    | simple => exact absurd rfl backslash
    | plain _ _ allowed rest => exact ⟨allowed, rest⟩
  · rintro ⟨allowed, rest⟩
    exact .plain quote backslash allowed rest

/-- The letter of an escape is that of a simple one, and stands for the character. -/
lemma escapeLetter?_eq_some (h : escapeLetter? c = some letter) :
    letter ∈ simpleEscapes ∧ unescapeLetter? letter = some c := by
  unfold escapeLetter? at h
  split at h <;> cases h <;> decide

/-- A character without an escape is none of those that have one. -/
lemma ne_of_escapeLetter? (plain : escapeLetter? c = none) (escaped : (escapeLetter? d).isSome) :
    c ≠ d := by
  rintro rfl
  rw [plain] at escaped
  cases escaped

/-- A character with a letter of its own is written as this letter behind a backslash. -/
lemma escape_cons_of_some (h : escapeLetter? c = some letter) :
    escape (c :: cs) = '\x5c' :: letter :: escape cs := by
  rw [escape, List.flatMap_cons, escapeChar, h]
  rfl

/-- Any other character is written as it is. -/
lemma escape_cons_of_none (h : escapeLetter? c = none) : escape (c :: cs) = c :: escape cs := by
  rw [escape, List.flatMap_cons, escapeChar, h]
  rfl

/-- A text is written as a regular literal exactly when its characters without an escape are not
forbidden. -/
lemma regular_escape_iff :
    Regular forbidden (escape cs) ↔ ∀ c ∈ cs, escapeLetter? c = none → c ∉ forbidden := by
  induction cs with
  | nil => exact iff_of_true .nil nofun
  | cons c cs ih =>
    rw [List.forall_mem_cons, ← ih]
    cases escaped : escapeLetter? c with
    | some letter =>
      rw [escape_cons_of_some escaped, regular_simple_iff (escapeLetter?_eq_some escaped).1]
      exact (and_iff_right nofun).symm
    | none =>
      have quote : c ≠ '\x22' := ne_of_escapeLetter? escaped rfl
      have backslash : c ≠ '\x5c' := ne_of_escapeLetter? escaped rfl
      rw [escape_cons_of_none escaped, regular_plain_iff quote backslash]
      simp only [forall_const]

/-- Whatever a text holds, its literal has no unescaped quote, no backslash but those of simple
escapes, no line feed and no carriage return. -/
lemma regular_escape (cs : List Char) : Regular ['\n', '\r'] (escape cs) := by
  refine regular_escape_iff.mpr fun c _ plain => ?_
  have lineFeed : c ≠ '\n' := ne_of_escapeLetter? plain rfl
  have carriageReturn : c ≠ '\r' := ne_of_escapeLetter? plain rfl
  simp [lineFeed, carriageReturn]

/-- The literal of a text is regular exactly when the text holds no new line that would stand in it
as it is. -/
lemma regular_escape_newLines_iff :
    Regular newLines (escape cs) ↔ ∀ c ∈ cs, c ∉ rawNewLines := by
  rw [regular_escape_iff]
  refine forall₂_congr fun c _ => ⟨fun regular raw => ?_, fun allowed plain newLine => ?_⟩
  · have plain : ∀ d ∈ rawNewLines, escapeLetter? d = none ∧ d ∈ newLines := by
      simp [rawNewLines, newLines, escapeLetter?]
    obtain ⟨plain, newLine⟩ := plain c raw
    exact regular plain newLine
  · have escaped : ∀ d ∈ newLines, (escapeLetter? d).isSome ∨ d ∈ rawNewLines := by
      simp [rawNewLines, newLines, escapeLetter?]
    obtain escaped | raw := escaped c newLine
    · exact ne_of_escapeLetter? plain escaped rfl
    · exact allowed raw

lemma unescape?_cons (quote : c ≠ '\x22') (backslash : c ≠ '\x5c') :
    unescape? (c :: cs) = (unescape? cs).map (c :: ·) := by
  rw [unescape?, if_neg (by simp [quote, backslash])]
  exact fun _ _ same => absurd same backslash

/-- The text of a literal is read back from what stands between its quotes. -/
lemma unescape?_escape (cs : List Char) : unescape? (escape cs) = some cs := by
  induction cs with
  | nil => rfl
  | cons c cs ih =>
    cases escaped : escapeLetter? c with
    | some letter =>
      rw [escape_cons_of_some escaped, unescape?, (escapeLetter?_eq_some escaped).2, ih]
      rfl
    | none =>
      have quote : c ≠ '\x22' := ne_of_escapeLetter? escaped rfl
      have backslash : c ≠ '\x5c' := ne_of_escapeLetter? escaped rfl
      rw [escape_cons_of_none escaped, unescape?_cons quote backslash, ih]
      rfl

end Escapes

section Quotes
variable {line name value : String} {front back cs : List Char} {p : Property}

/-- Behind the first quote stands what follows it. -/
lemma behindQuote?_append (absent : '\x22' ∉ front) :
    behindQuote? (front ++ '\x22' :: back) = some back := by
  rw [behindQuote?, List.dropWhile_append_of_pos (decide_ne_of_mem absent)]
  rfl

lemma behindQuote?_eq_none (absent : '\x22' ∉ cs) : behindQuote? cs = none := by
  have nothing : cs.dropWhile (· ≠ '\x22') = [] :=
    List.dropWhile_eq_nil_iff.mpr (decide_ne_of_mem absent)
  rw [behindQuote?, nothing]
  rfl

/-- A line holds the literal of a value between two texts without quotes. -/
structure Holds (line front value back : String) : Prop where
  eq_append : line = front ++ literal value ++ back
  front : '\x22' ∉ front.toList
  back : '\x22' ∉ back.toList

namespace Holds
variable {front back : String}

/-- A line that holds a value has it escaped between its quotes. -/
lemma toList_eq (holds : Holds line front value back) :
    line.toList = front.toList ++ '\x22' :: (escape value.toList ++ '\x22' :: back.toList) := by
  rw [holds.eq_append]
  simp [literal]

/-- The text between the quotes is that of the value. -/
lemma quoted?_eq (holds : Holds line front value back) :
    quoted? line = some (escape value.toList) := by
  have last : behindQuote? (escape value.toList ++ '\x22' :: back.toList).reverse =
      some (escape value.toList).reverse := by
    rw [List.reverse_append, List.reverse_cons, List.append_assoc]
    exact behindQuote?_append (by simpa using holds.back)
  rw [quoted?, holds.toList_eq, behindQuote?_append holds.front, Option.bind_some, last,
    Option.map_some, List.reverse_reverse]

lemma constantLine (absent : '\x22' ∉ name.toList) :
    Holds (constantLine name value) (indent 2 ("public const string " ++ name ++ " = ")) value
      ";" where
  eq_append := by simp [CSharp.constantLine, indent, String.append_assoc]
  front := by simpa [toList_indent] using absent
  back := by decide

lemma attributeLine (absent : '\x22' ∉ name.toList) :
    Holds (attributeLine name value) (indent 2 ("[" ++ name ++ "(")) value ")]" where
  eq_append := by simp [CSharp.attributeLine, indent, String.append_assoc]
  front := by simpa [toList_indent] using absent
  back := by decide

lemma lookupLine {c : CompiledContentType} (absent : '\x22' ∉ c.model.className.text.toList) :
    Holds (lookupLine c) (indent 3 ("\x7btypeof(" ++ c.model.className.text ++ "), "))
      c.model.sourceCodename "\x7d," where
  eq_append := by simp [CSharp.lookupLine, indent, String.append_assoc]
  front := by simpa [toList_indent] using absent
  back := by decide

end Holds

/-- A line without quotes has no literal. -/
lemma quoted?_eq_none (absent : '\x22' ∉ line.toList) : quoted? line = none := by
  rw [quoted?, behindQuote?_eq_none absent]
  rfl

/-- The line of a property has no quotes, if its names have none. -/
lemma quote_notMem_propertyLine (typed : '\x22' ∉ p.typeName.toList)
    (named : '\x22' ∉ p.identifier.text.toList) : '\x22' ∉ (propertyLine p).toList := by
  simp [propertyLine, toList_indent, typed, named]

end Quotes

end ContentClasses.CSharp
