/-!
# String literals of C#

The five characters that end or change a literal or its line are written as escapes of two
characters; every other character stands for itself.
-/

namespace ContentClasses.CSharp

/-- The letter of the escape for a character that is written as one. -/
def escapeLetter? : Char → Option Char
  | '\x5c' => some '\x5c'
  | '\x22' => some '\x22'
  | '\n' => some 'n'
  | '\r' => some 'r'
  | '\t' => some 't'
  | _ => none

/-- A character as it is written in a literal. -/
def escapeChar (c : Char) : List Char :=
  match escapeLetter? c with
  | some letter => ['\x5c', letter]
  | none => [c]

/-- Characters as they are written in a literal. -/
def escape (cs : List Char) : List Char :=
  cs.flatMap escapeChar

/-- Escaping goes character by character. -/
theorem escape_append (cs ds : List Char) : escape (cs ++ ds) = escape cs ++ escape ds := by
  simp [escape]

/-- The literal of a text, in quotes. -/
def literal (s : String) : String :=
  "\x22" ++ String.ofList (escape s.toList) ++ "\x22"

example : literal "a\x22\n" = "\x22a\x5c\x22\x5cn\x22" := by decide

end ContentClasses.CSharp
