import ContentClasses.Json.Basic

/-!
# Records in JSON

A record is written as an object, in which unknown names are left out and no field may be repeated,
or as an array of its fields in their order, from whose end fields may be left off. Which fields a
record must have is up to its type: a field is required, optional, or has a default.
-/

namespace ContentClasses.Json

/-- Why a document is no value of the type that is read from it. -/
inductive Failure where
  /-- The text is not JSON, or a name in it is no text. -/
  | malformed
  /-- The value is nested too deeply, or holds a number or a string that cannot be held. -/
  | notHeld
  | missingField (name : String)
  | repeatedField (name : String)
  | tooManyFields
  | unexpected (wanted : String)
deriving DecidableEq, Repr

/-- A failure in words. -/
def Failure.message : Failure → String
  | malformed => "the text is not a JSON document"
  | notHeld => "the value is nested too deeply or is out of range"
  | missingField name => "missing field '" ++ name ++ "'"
  | repeatedField name => "repeated field '" ++ name ++ "'"
  | tooManyFields => "too many fields"
  | unexpected wanted => "expected " ++ wanted

/-- A field of a record: its name, and a second name under which it may be written. -/
structure Field where
  name : String
  alias? : Option String := none

/-- The fields that a document gives, under their own names. -/
abbrev Record := List (String × Json)

/-- The name of the field that is written under `key`. -/
def fieldName? (fields : List Field) (key : String) : Option String :=
  (fields.find? fun field => field.name == key || field.alias? == some key).map (·.name)

/-- The record that the members of an object give. -/
def recordOfMembers (fields : List Field) : List (Text × Json) → Except Failure Record
  | [] => .ok []
  | (none, _) :: _ => .error .malformed
  | (some key, value) :: members => do
    let record ← recordOfMembers fields members
    match fieldName? fields key with
    | none => return record
    | some name =>
      if record.any (·.1 == name) then throw (.repeatedField name)
      else return (name, value) :: record

/-- The record that the items of an array give. -/
def recordOfItems : List Field → List Json → Except Failure Record
  | _, [] => .ok []
  | [], _ :: _ => .error .tooManyFields
  | field :: fields, item :: items => do
    let record ← recordOfItems fields items
    return (field.name, item) :: record

/-- The record that a value gives. -/
def toRecord (fields : List Field) : Json → Except Failure Record
  | .object members => recordOfMembers fields members
  | .array items => recordOfItems fields items
  | _ => .error (.unexpected "a record")

namespace Record

/-- A field that must be given. -/
def required {α : Type} (record : Record) (name : String) (read : Json → Except Failure α) :
    Except Failure α :=
  match record.lookup name with
  | some value => read value
  | none => .error (.missingField name)

/-- A field that may be left out or be null. -/
def optional {α : Type} (record : Record) (name : String) (read : Json → Except Failure α) :
    Except Failure (Option α) :=
  match record.lookup name with
  | none => .ok none
  | some .null => .ok none
  | some value => some <$> read value

/-- A field that has the value `default` when it is left out. -/
def withDefault {α : Type} (record : Record) (name : String) (default : α)
    (read : Json → Except Failure α) : Except Failure α :=
  match record.lookup name with
  | some value => read value
  | none => .ok default

end Record

/-- Reads a text. -/
def asText : Json → Except Failure String
  | .string (some s) => .ok s
  | _ => .error (.unexpected "a string")

/-- Reads a truth value. -/
def asBool : Json → Except Failure Bool
  | .bool b => .ok b
  | _ => .error (.unexpected "true or false")

/-- Reads a list. -/
def asList {α : Type} (read : Json → Except Failure α) : Json → Except Failure (List α)
  | .array items => items.mapM read
  | _ => .error (.unexpected "a list")

/-- Reads a count of at most 32 binary digits. It is written without sign, fraction and exponent. -/
def asCount : Json → Except Failure UInt32
  | .number n =>
    match n.integer? with
    | some (.ofNat count) =>
      if count < UInt32.size then .ok (UInt32.ofNat count) else .error (.unexpected "a count")
    | _ => .error (.unexpected "a count")
  | _ => .error (.unexpected "a count")

/-- Reads one of a set of names. It is a string, or the only name of an object with the value
null. -/
def asName {α : Type} (ofName? : String → Option α) (value : Json) : Except Failure α :=
  let name? : Option String :=
    match value with
    | .string s => s
    | .object [(name, .null)] => name
    | _ => none
  match name?.bind ofName? with
  | some a => .ok a
  | none => .error (.unexpected "a known name")

/-- The member of an optional field: none when it is not set. -/
def memberIfSet {α : Type} (name : String) (write : α → Json) (value? : Option α) :
    List (String × Json) :=
  match value? with
  | some value => [(name, write value)]
  | none => []

end ContentClasses.Json
