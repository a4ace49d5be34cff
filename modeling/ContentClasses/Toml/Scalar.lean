import ContentClasses.Text.Split
import ContentClasses.Toml.Value

/-!
# Numbers, moments and truth values of TOML

These values are words without blanks, but for a blank that may stand between a date and a time.
-/

namespace ContentClasses.Toml

/-- A character of the words that stand for values. -/
def isWordChar (c : Char) : Bool :=
  c.isAlphanum || c = '_' || c = '+' || c = '-' || c = '.' || c = ':'

/-- The digits of a number in which single underscores may stand between digits. -/
def digits? (isDigit : Char → Bool) (cs : List Char) : Option (List Char) :=
  let groups := cs.splitOn '_'
  if groups.all fun group => !group.isEmpty && group.all isDigit then some groups.flatten else none

/-- The digits of a whole number in decimal: a zero in front stands alone. -/
def wholeDigits? (cs : List Char) : Option (List Char) :=
  if cs.head? = some '0' && cs ≠ ['0'] then none else digits? Char.isDigit cs

/-- A whole number in the given base. -/
def ofBase? (base : Nat) (cs : List Char) : Option Int := do
  let digits ← digits? Char.isAlphanum cs
  let n ← Numeral.ofBase? base digits
  Numeral.inRange? n

/-- A whole number. Numbers in other bases than ten have no sign. -/
def integer? : List Char → Option Int
  | '0' :: 'x' :: cs => ofBase? 16 cs
  | '0' :: 'o' :: cs => ofBase? 8 cs
  | '0' :: 'b' :: cs => ofBase? 2 cs
  | cs => do
    let (negative, rest) := Numeral.sign cs
    let digits ← wholeDigits? rest
    let n : Int := Numeral.ofDigits digits
    Numeral.inRange? (if negative then -n else n)

/-- The digits of a fraction behind its point; none when there is no point. -/
def fraction? : List Char → Option (List Char)
  | [] => some []
  | '.' :: cs => digits? Char.isDigit cs
  | _ => none

/-- The exponent behind the letter E. -/
def exponent? (cs : List Char) : Option Int := do
  let (negative, rest) := Numeral.sign cs
  let digits ← digits? Char.isDigit rest
  let n : Int := Numeral.ofDigits digits
  return if negative then -n else n

/-- The letter E, which stands in front of an exponent. -/
def isExponentMark (c : Char) : Bool :=
  c = 'e' || c = 'E'

/-- A number with a fraction, an exponent or both. -/
def decimal? (cs : List Char) : Option Decimal := do
  let (negative, rest) := Numeral.sign cs
  if !rest.any fun c => c = '.' || isExponentMark c then none
  let mantissa := rest.takeWhile (!isExponentMark ·)
  let whole ← wholeDigits? (mantissa.takeWhile (· ≠ '.'))
  let fraction ← fraction? (mantissa.dropWhile (· ≠ '.'))
  let exponent ←
    match rest.drop mantissa.length with
    | [] => some 0
    | _ :: behind => exponent? behind
  return {
    negative
    coefficient := Numeral.ofDigits (whole ++ fraction)
    exponent := exponent - fraction.length }

/-- A number that is not whole, an infinity, or no number. A number above all others is none; one
below all others is an infinity. -/
def float? (cs : List Char) : Option Binary64 :=
  let (negative, rest) := Numeral.sign cs
  if rest = ['i', 'n', 'f'] then some (.infinite negative)
  else if rest = ['n', 'a', 'n'] then some .nan
  else
    match (decimal? cs).map Binary64.ofDecimal with
    | some (.infinite false) => none
    | x => x

/-- The value that a word stands for. -/
def ofWord? (word : List Char) : Option Value :=
  if word = "true".toList then some (.bool true)
  else if word = "false".toList then some (.bool false)
  else
    match moment? word, float? word, integer? word with
    | some moment, _, _ => some (.moment (String.ofList moment))
    | none, _, some n => some (.integer n)
    | none, some x, none => some (.float x)
    | none, none, none => none

/-- The word at the front of a text, and what follows it. -/
def word (cs : List Char) : List Char × List Char :=
  (cs.takeWhile isWordChar, cs.dropWhile isWordChar)

/-- Reads a value that is a word, or a date and a time with a blank between them. -/
def scalar? (cs : List Char) : Option (Value × List Char) := do
  let (first, rest) := word cs
  let alone := (ofWord? first).map fun value => (value, rest)
  match date? first, rest with
  | some (_, []), ' ' :: behind =>
    let (second, rest) := word behind
    match moment? (first ++ ' ' :: second) with
    | some moment => return (.moment (String.ofList moment), rest)
    | none => alone
  | _, _ => alone

end ContentClasses.Toml
