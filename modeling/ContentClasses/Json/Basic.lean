import ContentClasses.Json.Number

/-!
# JSON values

A value keeps what a reader may have to tell apart: the members of an object with their order and
repetitions, whether a number was written as a whole number, and strings that stand for no text.
-/

namespace ContentClasses

namespace Json

/-- The text of a string: none when an escape in it names half of a surrogate pair. -/
abbrev Text := Option String

end Json

/-- A JSON value. -/
inductive Json where
  | null
  | bool (value : Bool)
  | number (value : Json.Number)
  | string (text : Json.Text)
  | array (items : List Json)
  | object (members : List (Json.Text × Json))

namespace Json

/-- The value of a text. -/
def ofString (s : String) : Json :=
  .string (some s)

/-- The value of a whole number. -/
def ofNat (n : Nat) : Json :=
  .number (.ofNat n)

/-- The value with the given members, all of whose names are texts. -/
def ofMembers (members : List (String × Json)) : Json :=
  .object (members.map fun (name, value) => (some name, value))

/-- The value of a list of texts. -/
def ofStrings (texts : List String) : Json :=
  .array (texts.map ofString)

mutual

/-- The number of arrays and objects inside one another. -/
def depth : Json → Nat
  | .array items => depthOfItems items + 1
  | .object members => depthOfMembers members + 1
  | _ => 0

/-- The greatest depth in a list of values. -/
def depthOfItems : List Json → Nat
  | [] => 0
  | item :: items => max (depth item) (depthOfItems items)

/-- The greatest depth in a list of members. -/
def depthOfMembers : List (Text × Json) → Nat
  | [] => 0
  | (_, value) :: members => max (depth value) (depthOfMembers members)

end

mutual

/-- Every string is a text and every number is in the range of a double. -/
def isPlain : Json → Bool
  | .null => true
  | .bool _ => true
  | .number n => n.float.isFinite
  | .string text => text.isSome
  | .array items => itemsArePlain items
  | .object members => membersArePlain members

/-- Every item is plain. -/
def itemsArePlain : List Json → Bool
  | [] => true
  | item :: items => isPlain item && itemsArePlain items

/-- Every name is a text and every member is plain. -/
def membersArePlain : List (Text × Json) → Bool
  | [] => true
  | (name, value) :: members => name.isSome && isPlain value && membersArePlain members

end

/-- The greatest depth of a document that is held in memory as a value. -/
def maxDepth : Nat := 127

/-- The value can be held in memory when `room` levels of its document are left for it. A value
that is read straight into a record is not held, and neither are the fields that the record
leaves out. -/
def isHeld (room : Nat) (value : Json) : Bool :=
  depth value ≤ room && isPlain value

end Json

end ContentClasses
