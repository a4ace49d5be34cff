import ContentClasses.Json.Basic

/-!
# Writing JSON

A value is written on one line without blanks. Everything that a reader of lines could take for
the end of one is escaped.
-/

namespace ContentClasses.Json

/-- Four hexadecimal digits of a number below `16 ^ 4`. -/
def fourHexDigits (n : Nat) : List Char :=
  let digits := Nat.toDigits 16 n
  List.replicate (4 - digits.length) '0' ++ digits

/-- A character as it is written inside quotes. -/
def quotedChar (c : Char) : List Char :=
  if c = '\x22' then ['\x5c', '\x22']
  else if c = '\x5c' then ['\x5c', '\x5c']
  else if c.toNat < 0x20 ∨ c.toNat = 0x85 ∨ c.toNat = 0x2028 ∨ c.toNat = 0x2029 then
    '\x5c' :: 'u' :: fourHexDigits c.toNat
  else [c]

/-- A text in quotes. -/
def quoted (s : String) : String :=
  "\x22" ++ String.ofList (s.toList.flatMap quotedChar) ++ "\x22"

/-- A string that stands for no text is written with a character that stands for none. -/
def textOf (text : Text) : String :=
  text.getD "\ufffd"

/-- A number as a whole number or with an exponent. A whole number has zeros in the places of the
digits that are not kept. -/
def Number.text (n : Number) : String :=
  let sign := if n.negative then "-" else ""
  let digits := sign ++ toString n.digits
  if n.isWhole then digits ++ String.ofList (List.replicate n.exponent.toNat '0')
  else digits ++ "e" ++ toString n.exponent

mutual

/-- The text of a value. -/
def text : Json → String
  | .null => "null"
  | .bool b => if b then "true" else "false"
  | .number n => n.text
  | .string s => quoted (textOf s)
  | .array items => "[" ++ ",".intercalate (itemTexts items) ++ "]"
  | .object members => "\x7b" ++ ",".intercalate (memberTexts members) ++ "\x7d"

/-- The texts of the items of an array. -/
def itemTexts : List Json → List String
  | [] => []
  | item :: items => text item :: itemTexts items

/-- The texts of the members of an object. -/
def memberTexts : List (Text × Json) → List String
  | [] => []
  | (name, value) :: members => (quoted (textOf name) ++ ":" ++ text value) :: memberTexts members

end

end ContentClasses.Json
