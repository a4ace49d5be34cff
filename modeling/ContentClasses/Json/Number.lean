import ContentClasses.Decimal.Arithmetic

/-!
# JSON numbers

A number is kept as its leading digits, as many as fit into 64 binary digits, and a power of ten.
Its double is made from these two parts: the digits are rounded to a double, which is multiplied or
divided by the power, rounded as well. So it may differ from the double nearest to the number.
-/

namespace ContentClasses.Json

/-- The number `± digits · 10 ^ exponent`. A whole number is one written without fraction and
exponent. -/
structure Number where
  negative : Bool
  digits : Nat
  exponent : Int
  isWhole : Bool
deriving DecidableEq, Repr

namespace Number

/-- The greatest number of 64 binary digits. -/
def maxDigits : Nat := 18446744073709551615

/-- Writes digits behind those of a number, as long as the number fits, and answers with the digits
that are left over. -/
def append (n : Nat) : List Char → Nat × List Char
  | [] => (n, [])
  | c :: cs =>
    let longer := n * 10 + (c.toNat - '0'.toNat)
    if longer ≤ maxDigits then append longer cs else (n, c :: cs)

/-- The number with the given whole part, fraction and exponent, if it has these. Digits of the
whole part that are left over count as places; digits of the fraction that are left over do not
count. -/
def ofParts (negative : Bool) (whole : List Char) (fraction? : Option (List Char))
    (exponent? : Option Int) : Number :=
  let fraction := fraction?.getD []
  let (digits, places) := append 0 whole
  let (digits, rest) := append digits fraction
  { negative
    digits
    exponent := exponent?.getD 0 + places.length - (fraction.length - rest.length : Nat)
    isWhole := fraction?.isNone && exponent?.isNone }

example : (ofParts false ['1'] (some ['5']) (some (-3))).digits = 15 := by decide

example : (ofParts false ['1'] (some ['5']) (some (-3))).exponent = -4 := by decide

/-- The number of a count. -/
def ofNat (n : Nat) : Number where
  negative := false
  digits := n
  exponent := 0
  isWhole := true

/-- The whole number that was written, if all its digits fit. There is no negative zero among the
whole numbers. -/
def integer? (n : Number) : Option Int :=
  if n.isWhole && n.exponent = 0 then
    if n.negative then (if n.digits = 0 then none else some (-n.digits)) else some n.digits
  else none

/-- The double of a number. It is infinite if the number is out of range. -/
def float (n : Number) : Binary64 :=
  let x := Binary64.ofDecimal { negative := n.negative, coefficient := n.digits, exponent := 0 }
  if n.exponent < 0 then x.overPower n.exponent.natAbs else x.timesPower n.exponent.natAbs

end Number

end ContentClasses.Json
