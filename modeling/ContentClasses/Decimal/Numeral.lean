import ContentClasses.Decimal.Binary64

/-!
# Numerals

Reading whole numbers and binary64 numbers from texts that hold nothing else.
-/

namespace ContentClasses.Numeral

/-- The whole number that a list of decimal digits gives. -/
def ofDigits (digits : List Char) : Nat :=
  digits.foldl (fun n c => n * 10 + (c.toNat - '0'.toNat)) 0

/-- The number of a list of digits, unless the list is empty or holds anything else. -/
def digits? (cs : List Char) : Option Nat :=
  if cs.isEmpty || !cs.all Char.isDigit then none else some (ofDigits cs)

/-- The value of a hexadecimal digit. -/
def hexDigit? (c : Char) : Option Nat :=
  if c.isDigit then some (c.toNat - '0'.toNat)
  else if 'a' ≤ c ∧ c ≤ 'f' then some (c.toNat - 'a'.toNat + 10)
  else if 'A' ≤ c ∧ c ≤ 'F' then some (c.toNat - 'A'.toNat + 10)
  else none

/-- The number that a list of digits gives in a base of at most sixteen. -/
def ofBase? (base : Nat) (digits : List Char) : Option Nat := do
  let values ← digits.mapM hexDigit?
  if values.all (· < base) then return values.foldl (fun n d => base * n + d) 0 else none

/-- The sign in front of a number, true for minus, and what follows it. -/
def sign : List Char → Bool × List Char
  | '+' :: rest => (false, rest)
  | '-' :: rest => (true, rest)
  | cs => (false, cs)

/-- The whole number if it has at most 63 binary digits and a sign. -/
def inRange? (n : Int) : Option Int :=
  if -9223372036854775808 ≤ n ∧ n ≤ 9223372036854775807 then some n else none

/-- The number of a text that is a whole number with or without a sign. -/
def integer? (s : String) : Option Int := do
  let (negative, rest) := sign s.toList
  let n ← digits? rest
  inRange? (if negative then -n else n)

/-- The digits before and after the point of a number, of which there is one at least. -/
def point? (cs : List Char) : Option (List Char × List Char) :=
  let whole := cs.takeWhile Char.isDigit
  match cs.dropWhile Char.isDigit with
  | [] => if whole.isEmpty then none else some (whole, [])
  | '.' :: fraction =>
    if fraction.all Char.isDigit && !(whole.isEmpty && fraction.isEmpty) then some (whole, fraction)
    else none
  | _ => none

/-- The exponent behind the letter E. -/
def exponent? (cs : List Char) : Option Int := do
  let (negative, rest) := sign cs
  let n ← digits? rest
  return if negative then -n else n

/-- The decimal of a text without a sign. -/
def decimal? (negative : Bool) (cs : List Char) : Option Decimal := do
  let isExponentMark := fun c => c = 'e' ∨ c = 'E'
  let (whole, fraction) ← point? (cs.takeWhile fun c => ¬isExponentMark c)
  let exponent ←
    match cs.dropWhile fun c => ¬isExponentMark c with
    | [] => some 0
    | _ :: rest => exponent? rest
  return {
    negative
    coefficient := ofDigits (whole ++ fraction)
    exponent := exponent - fraction.length }

/-- The number of a text that is a decimal or names an infinity or no number, in any case. -/
def float? (s : String) : Option Binary64 :=
  let (negative, rest) := sign s.toList
  let word := String.ofList (rest.map Char.toLower)
  if word = "inf" ∨ word = "infinity" then some (.infinite negative)
  else if word = "nan" then some .nan
  else (decimal? negative rest).map Binary64.ofDecimal

end ContentClasses.Numeral
