/-!
# Decimals and binary64 numbers

A decimal is an exact number `± coefficient · 10 ^ exponent`. A binary64 number is the nearest
double-precision number to a decimal; its text has the fewest digits that read back as the same
number, without an exponent. Everything is done in whole numbers.
-/

namespace ContentClasses

/-- The number `± coefficient · 10 ^ exponent`. -/
structure Decimal where
  negative : Bool
  coefficient : Nat
  exponent : Int
deriving DecidableEq, Repr

/-- A double-precision number: `± mantissa · 2 ^ exponent`, an infinity, or no number. -/
inductive Binary64 where
  | finite (negative : Bool) (mantissa : Nat) (exponent : Int)
  | infinite (negative : Bool)
  | nan
deriving DecidableEq, Repr

namespace Binary64

/-- The least exponent of a double. -/
def minExponent : Int := -1074

/-- The greatest exponent of a double with a full mantissa. -/
def maxExponent : Int := 971

/-- A full mantissa has 53 binary digits. -/
def mantissaBits : Nat := 53

/-- The quotient rounded to the nearest whole number, a half to the even neighbour. -/
def roundDiv (num den : Nat) : Nat :=
  let q := num / den
  let twice := 2 * (num % den)
  if twice < den then q
  else if twice = den then q + q % 2
  else q + 1

/-- The quotient `num / den` with a power of two taken out of it. -/
def scaled (num den : Nat) (exponent : Int) : Nat × Nat :=
  if exponent < 0 then (num * Nat.pow 2 exponent.natAbs, den)
  else (num, den * Nat.pow 2 exponent.natAbs)

/-- The double nearest to the positive quotient `num / den`. -/
def ofRatio (negative : Bool) (num den : Nat) : Binary64 :=
  -- The binary logarithm of the quotient is this guess or one less.
  let guess : Int := (num.log2 : Int) - den.log2
  let (n, d) := scaled num den guess
  let log : Int := if n < d then guess - 1 else guess
  let exponent := max minExponent (log - (mantissaBits - 1))
  let (n, d) := scaled num den exponent
  let m := roundDiv n d
  -- Rounding up may reach the next power of two.
  let (m, exponent) := if m = Nat.pow 2 mantissaBits then (m / 2, exponent + 1) else (m, exponent)
  if maxExponent < exponent then .infinite negative else .finite negative m exponent

/-- The number of decimal digits of a positive number. -/
def digitCount (n : Nat) : Nat :=
  (Nat.toDigits 10 n).length

/-- The double nearest to a decimal, a half to the even neighbour. -/
def ofDecimal (x : Decimal) : Binary64 :=
  if x.coefficient = 0 then .finite x.negative 0 0
  else
    -- The number has this many digits before the point, so these two cases are out of range.
    let magnitude := (digitCount x.coefficient : Int) + x.exponent
    if 310 < magnitude then .infinite x.negative
    else if magnitude < -330 then .finite x.negative 0 0
    else if x.exponent < 0 then
      ofRatio x.negative x.coefficient (Nat.pow 10 x.exponent.natAbs)
    else ofRatio x.negative (x.coefficient * Nat.pow 10 x.exponent.natAbs) 1

/-- The number is zero, of either sign. -/
def isZero : Binary64 → Bool
  | .finite _ m _ => m == 0
  | _ => false

/-- The number is finite. -/
def isFinite : Binary64 → Bool
  | .finite .. => true
  | _ => false

/-- The numbers that round to `m · 2 ^ e`, each bound in quarters of `2 ^ e`, and whether the
bounds themselves do. -/
structure Neighbourhood where
  low : Nat
  high : Nat
  closed : Bool

/-- The numbers that round to `m · 2 ^ e`. Below a power of two the doubles lie twice as close. -/
def neighbourhood (m : Nat) (e : Int) : Neighbourhood where
  low :=
    if m = Nat.pow 2 (mantissaBits - 1) ∧ minExponent < e then 4 * m - 1 else 4 * m - 2
  high := 4 * m + 2
  closed := m % 2 == 0

/-- A quotient of whole numbers that stands for `q / 4 · 2 ^ e / 10 ^ k`. -/
def quarters (q : Nat) (e k : Int) : Nat × Nat :=
  let num := q * Nat.pow 2 e.toNat * Nat.pow 10 (-k).toNat
  let den := 4 * Nat.pow 2 (-e).toNat * Nat.pow 10 k.toNat
  (num, den)

/-- The whole number `c` stands for `c · 10 ^ k` in the neighbourhood. -/
def Neighbourhood.contains (near : Neighbourhood) (e k : Int) (c : Nat) : Bool :=
  let (lowNum, lowDen) := quarters near.low e k
  let (highNum, highDen) := quarters near.high e k
  if near.closed then lowNum ≤ c * lowDen && c * highDen ≤ highNum
  else lowNum < c * lowDen && c * highDen < highNum

/-- The member of the decimal grid `10 ^ k` that reads back as `m · 2 ^ e`, if there is one: of the
two neighbours of the number on the grid the nearer, the upper one at equal distance. -/
def onGrid? (m : Nat) (e k : Int) : Option Nat :=
  let near := neighbourhood m e
  let (num, den) := quarters (4 * m) e k
  let below := num / den
  let above := below + 1
  let downward := near.contains e k below
  let upward := near.contains e k above
  if downward && upward then
    some (if 2 * (num % den) < den then below else above)
  else if downward then some below
  else if upward then some above
  else none

/-- The first grid on which the number has a member that reads back, from `10 ^ k` downwards. -/
def firstGrid (m : Nat) (e : Int) : Nat → Int → Nat × Int
  | 0, k => (m, k)
  | fuel + 1, k =>
    match onGrid? m e k with
    | some c => (c, k)
    | none => firstGrid m e fuel (k - 1)

/-- The digits and the exponent of the shortest decimal that reads back as `m · 2 ^ e`. Seventeen
digits always suffice; the first grid lies above the number. -/
def shortest (m : Nat) (e : Int) : Nat × Int :=
  let log10 : Int := ((m.log2 : Int) + e) * 30103 / 100000
  firstGrid m e 25 (log10 + 2)

/-- The digits with a point, without an exponent. -/
def positional (digits : List Char) (exponent : Int) : List Char :=
  if 0 ≤ exponent then digits ++ List.replicate exponent.natAbs '0'
  else
    let places := exponent.natAbs
    let digits := List.replicate (places + 1 - digits.length) '0' ++ digits
    let whole := digits.length - places
    digits.take whole ++ '.' :: digits.drop whole

/-- The text of the number: the fewest digits that read back, without an exponent. -/
def text : Binary64 → String
  | .nan => "NaN"
  | .infinite negative => if negative then "-inf" else "inf"
  | .finite negative m e =>
    let sign := if negative then "-" else ""
    if m = 0 then sign ++ "0"
    else
      let (c, k) := shortest m e
      -- A grid above the last digit of the number can leave zeros at the end of the digits.
      sign ++ String.ofList (positional (Nat.toDigits 10 c) k)

end Binary64

end ContentClasses
