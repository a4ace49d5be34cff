import ContentClasses.Toml.Quoted

/-!
# Writing TOML

Truth values, strings and lists of strings. A string is written in the first form that can hold it
without escapes: on one line with double quotes, on one line with single quotes, on several lines
with double and then with single quotes. A string that needs escapes is written with double quotes,
on several lines if it has several.
-/

namespace ContentClasses.Toml

/-- A character that must be escaped: a control character that is neither a tab nor a line feed. -/
def isControl (c : Char) : Bool :=
  (c < ' ' && c ≠ '\t' && c ≠ '\n') || c = '\x7f'

/-- The length of the longest run of `quote` in a list, with `run` of them in front of it. -/
def longestRun (quote : Char) (run : Nat) : List Char → Nat
  | [] => run
  | c :: cs =>
    if c = quote then longestRun quote (run + 1) cs else max run (longestRun quote 0 cs)

/-- A form in which a string is written. -/
inductive Form where
  | basic
  | literal
  | basicLines
  | literalLines
deriving DecidableEq, Repr

namespace Form

/-- The quotes on each side of a string. -/
def quotes : Form → List Char
  | basic => ['\x22']
  | literal => ['\x27']
  | basicLines => ['\x22', '\x22', '\x22']
  | literalLines => ['\x27', '\x27', '\x27']

/-- The form has escapes. -/
def hasEscapes : Form → Bool
  | basic | basicLines => true
  | literal | literalLines => false

/-- The form may go over several lines. -/
def hasLines : Form → Bool
  | basic | literal => false
  | basicLines | literalLines => true

/-- The quote of a form. -/
def quote : Form → Char
  | basic | basicLines => '\x22'
  | literal | literalLines => '\x27'

/-- The longest run of its quote that a form holds without escapes. -/
def maxRun : Form → Nat
  | basic | literal => 0
  | basicLines | literalLines => 2

/-- The form holds the characters without escapes. -/
def holds (form : Form) (cs : List Char) : Bool :=
  !cs.any isControl && longestRun form.quote 0 cs ≤ form.maxRun &&
    (form.hasLines || !cs.contains '\n') && !(form.hasEscapes && cs.contains '\x5c')

/-- The form in which a string is written. -/
def of (cs : List Char) : Form :=
  match [basic, literal, basicLines, literalLines].find? (·.holds cs) with
  | some form => form
  | none => if cs.contains '\n' then basicLines else basic

end Form

/-- The letter of the escape for a character that has one of two characters. -/
def escapeLetter? : Char → Option Char
  | '\x08' => some 'b'
  | '\t' => some 't'
  | '\n' => some 'n'
  | '\x0c' => some 'f'
  | '\r' => some 'r'
  | '\x5c' => some '\x5c'
  | _ => none

/-- A hexadecimal digit as it is written. -/
def hexDigit (n : Nat) : Char :=
  if n < 10 then Char.ofNat ('0'.toNat + n) else Char.ofNat ('A'.toNat + (n - 10))

/-- A character below `16 ^ 4` by its code point. -/
def escapeCode (c : Char) : List Char :=
  let n := c.toNat
  ['\x5c', 'u', hexDigit (n / 0x1000 % 16), hexDigit (n / 0x100 % 16), hexDigit (n / 16 % 16),
    hexDigit (n % 16)]

/-- A character other than a quote as it is written in a form with escapes. -/
def escapeChar (form : Form) (c : Char) : List Char :=
  if form.hasLines && c = '\n' then [c]
  else
    match escapeLetter? c with
    | some letter => ['\x5c', letter]
    | none => if isControl c then escapeCode c else [c]

/-- Characters as they are written in a form with escapes, behind `run` quotes. A quote that would
make a run too long is escaped and starts a new one, as every escape does. -/
def escape (form : Form) (run : Nat) : List Char → List Char
  | [] => []
  | '\x22' :: cs =>
    if run < form.maxRun then '\x22' :: escape form (run + 1) cs
    else '\x5c' :: '\x22' :: escape form 0 cs
  | c :: cs => escapeChar form c ++ escape form 0 cs

/-- The characters of a string in a form. -/
def body (form : Form) (cs : List Char) : List Char :=
  if form.hasEscapes then escape form 0 cs else cs

/-- A string as it is written. A form for several lines starts them on a line of their own. -/
def writeChars (cs : List Char) : List Char :=
  let form := Form.of cs
  let lineEnd := if form.hasLines && cs.contains '\n' then ['\n'] else []
  form.quotes ++ lineEnd ++ body form cs ++ form.quotes

/-- A string as it is written. -/
def writeText (s : String) : String :=
  String.ofList (writeChars s.toList)

/-- A truth value as it is written. -/
def writeBool (b : Bool) : String :=
  if b then "true" else "false"

/-- A list of strings as it is written: one to a line when there are several. -/
def writeTexts : List String → String
  | [] => "[]"
  | [s] => "[" ++ writeText s ++ "]"
  | several => "[\n" ++ String.join (several.map fun s => "    " ++ writeText s ++ ",\n") ++ "]"

/-- The line of a key and its value. -/
def line (key value : String) : String :=
  key ++ " = " ++ value ++ "\n"

end ContentClasses.Toml
