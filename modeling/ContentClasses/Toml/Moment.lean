import ContentClasses.Decimal.Numeral

/-!
# Dates and times of TOML

A moment is a date, a time, or both, and may then have an offset from universal time. It is kept as
text, in one form for each moment.
-/

namespace ContentClasses.Toml

/-- The number of two digits, if it is in the given range. -/
def twoDigits? (low high : Nat) (a b : Char) : Option Nat :=
  if a.isDigit && b.isDigit then
    let n := Numeral.ofDigits [a, b]
    if low ≤ n ∧ n ≤ high then some n else none
  else none

/-- The number of days of a month. -/
def daysOf (year month : Nat) : Nat :=
  if month = 2 then
    if year % 4 = 0 ∧ (year % 100 ≠ 0 ∨ year % 400 = 0) then 29 else 28
  else if month = 4 ∨ month = 6 ∨ month = 9 ∨ month = 11 then 30
  else 31

/-- A date at the front of a text, and what follows it. -/
def date? : List Char → Option (List Char × List Char)
  | a :: b :: c :: d :: '-' :: e :: f :: '-' :: g :: h :: rest => do
    let year ← Numeral.digits? [a, b, c, d]
    let month ← twoDigits? 1 12 e f
    let _ ← twoDigits? 1 (daysOf year month) g h
    return ([a, b, c, d, '-', e, f, '-', g, h], rest)
  | _ => none

/-- The fraction of a second: at most nine digits count, and zeros at the end are left out. -/
def secondFraction (digits : List Char) : List Char :=
  match ((digits.take 9).reverse.dropWhile (· = '0')).reverse with
  | [] => []
  | kept => '.' :: kept

/-- A time at the front of a text, and what follows it. -/
def time? : List Char → Option (List Char × List Char)
  | a :: b :: ':' :: c :: d :: ':' :: e :: f :: rest => do
    let _ ← twoDigits? 0 23 a b
    let _ ← twoDigits? 0 59 c d
    let _ ← twoDigits? 0 60 e f
    let whole := [a, b, ':', c, d, ':', e, f]
    match rest with
    | '.' :: behind =>
      let digits := behind.takeWhile Char.isDigit
      if digits.isEmpty then none
      else return (whole ++ secondFraction digits, behind.drop digits.length)
    | _ => return (whole, rest)
  | _ => none

/-- The offset of a time from universal time, which ends a text. -/
def offset? : List Char → Option (List Char)
  | [] => some []
  | ['Z'] | ['z'] => some ['Z']
  | [s, a, b, ':', c, d] => do
    if s ≠ '+' ∧ s ≠ '-' then none
    let hours ← twoDigits? 0 23 a b
    let minutes ← twoDigits? 0 59 c d
    let s := if hours = 0 ∧ minutes = 0 then '+' else s
    return [s, a, b, ':', c, d]
  | _ => none

/-- A time with or without an offset that follows a date. -/
def timeOfDate? (cs : List Char) : Option (List Char) := do
  let (time, rest) ← time? cs
  let offset ← offset? rest
  return 'T' :: time ++ offset

/-- A text that is a date, a time, or both with a letter or a blank between them. -/
def moment? (cs : List Char) : Option (List Char) :=
  match date? cs with
  | some (date, []) => some date
  | some (date, mark :: rest) =>
    if ['T', 't', ' '].contains mark then (date ++ ·) <$> timeOfDate? rest else none
  | none =>
    match time? cs with
    | some (time, []) => some time
    | _ => none

end ContentClasses.Toml
