import ContentClasses.Decimal.Binary64

/-!
# Products and quotients of doubles

The double nearest to the product or the quotient of two doubles, a half going to the even
neighbour. A power of ten is itself a double here, so it is rounded before it is multiplied or
divided by.
-/

namespace ContentClasses.Binary64

/-- The double is below zero, or the negative zero. -/
def isNegative : Binary64 → Bool
  | .finite negative _ _ => negative
  | .infinite negative => negative
  | .nan => false

/-- The double nearest to `num / den · 2 ^ exponent`. -/
def ofScaled (negative : Bool) (num den : Nat) (exponent : Int) : Binary64 :=
  if num = 0 then .finite negative 0 0
  else
    let (n, d) := scaled num den (-exponent)
    ofRatio negative n d

/-- The product of two doubles. -/
def mul (x y : Binary64) : Binary64 :=
  let negative := x.isNegative != y.isNegative
  match x, y with
  | .nan, _ => .nan
  | _, .nan => .nan
  | .finite _ m e, .finite _ n f => ofScaled negative (m * n) 1 (e + f)
  | .infinite _, y => if y.isZero then .nan else .infinite negative
  | x, .infinite _ => if x.isZero then .nan else .infinite negative

/-- The quotient of two doubles. -/
def div (x y : Binary64) : Binary64 :=
  let negative := x.isNegative != y.isNegative
  match x, y with
  | .nan, _ => .nan
  | _, .nan => .nan
  | .finite _ m e, .finite _ n f =>
    if n ≠ 0 then ofScaled negative m n (e - f)
    else if m = 0 then .nan
    else .infinite negative
  | .infinite _, .infinite _ => .nan
  | .infinite _, .finite _ _ _ => .infinite negative
  | .finite _ _ _, .infinite _ => .finite negative 0 0

/-- The greatest exponent of a power of ten in the range of the doubles. -/
def maxPower : Nat := 308

/-- The double nearest to `10 ^ k`. -/
def powerOfTen (k : Nat) : Binary64 :=
  ofDecimal { negative := false, coefficient := 1, exponent := k }

/-- The double times `10 ^ k`. A power out of range leaves nothing but zero in range. -/
def timesPower (x : Binary64) (k : Nat) : Binary64 :=
  if k ≤ maxPower then x.mul (powerOfTen k)
  else if x.isZero then x
  else .infinite x.isNegative

/-- A double below `2 ^ 64` over `10 ^ k`. A power out of range is divided by in two steps; what is
smaller than that is zero. -/
def overPower (x : Binary64) (k : Nat) : Binary64 :=
  if k ≤ maxPower then x.div (powerOfTen k)
  else if k ≤ 2 * maxPower then (x.div (powerOfTen maxPower)).div (powerOfTen (k - maxPower))
  else .finite x.isNegative 0 0

example : ((finite false 3 1).mul (finite true 5 (-1))).text = "-15" := by decide +kernel

example : ((finite false 3 1).div (finite true 5 (-1))).text = "-2.4" := by decide +kernel

end ContentClasses.Binary64
