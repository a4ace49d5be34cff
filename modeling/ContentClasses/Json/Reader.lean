import ContentClasses.Json.Token

/-!
# Reading JSON

A value is built from tokens with a stack of the arrays and objects that are still open, so that
values may be nested to any depth. Texts are read strictly: no comments, no comma at the end of a
list, nothing after the value.
-/

namespace ContentClasses.Json

/-- An array or object that is still open, with what it holds so far in reverse order. -/
inductive Frame where
  | items (done : List Json)
  | members (done : List (Text × Json)) (name : Text)

/-- What may come next: a value, the first value or the end of an array, what follows a value, a
name, or the first name or the end of an object, or the colon after a name. -/
inductive Expected where
  | value
  | firstItem
  | after (value : Json)
  | name
  | firstName
  | colon (name : Text)

/-- The state of a reader: the open arrays and objects, innermost first, and what may come next.
The name in an object's frame is that of the value being read. -/
structure Reader where
  frames : List Frame
  expected : Expected

namespace Reader

/-- The state before a text. -/
def start : Reader where
  frames := []
  expected := .value

/-- Reads the first token of a value. -/
def beginValue (frames : List Frame) : Token → Option Reader
  | .null => some ⟨frames, .after .null⟩
  | .bool b => some ⟨frames, .after (.bool b)⟩
  | .number n => some ⟨frames, .after (.number n)⟩
  | .string s => some ⟨frames, .after (.string s)⟩
  | .openArray => some ⟨.items [] :: frames, .firstItem⟩
  | .openObject => some ⟨.members [] none :: frames, .firstName⟩
  | _ => none

/-- Reads the token after a value. -/
def endValue (value : Json) : List Frame → Token → Option Reader
  | .items done :: frames, .comma => some ⟨.items (value :: done) :: frames, .value⟩
  | .items done :: frames, .closeArray =>
    some ⟨frames, .after (.array (value :: done).reverse)⟩
  | .members done name :: frames, .comma =>
    some ⟨.members ((name, value) :: done) none :: frames, .name⟩
  | .members done name :: frames, .closeObject =>
    some ⟨frames, .after (.object ((name, value) :: done).reverse)⟩
  | _, _ => none

/-- Reads one token. -/
def step (reader : Reader) (token : Token) : Option Reader :=
  match reader.expected, reader.frames, token with
  | .value, frames, token => beginValue frames token
  | .firstItem, .items _ :: frames, .closeArray => some ⟨frames, .after (.array [])⟩
  | .firstItem, frames, token => beginValue frames token
  | .after value, frames, token => endValue value frames token
  | .firstName, .members _ _ :: frames, .closeObject => some ⟨frames, .after (.object [])⟩
  | .name, frames, .string name => some ⟨frames, .colon name⟩
  | .firstName, frames, .string name => some ⟨frames, .colon name⟩
  | .colon name, .members done _ :: frames, .colon =>
    some ⟨.members done name :: frames, .value⟩
  | _, _, _ => none

/-- The value that has been read, when no array or object is open any more. -/
def finished? : Reader → Option Json
  | ⟨[], .after value⟩ => some value
  | _ => none

end Reader

/-- The value of a JSON text. -/
def ofText? (text : String) : Option Json := do
  let tokens ← tokens? text.toList
  let reader ← tokens.foldlM Reader.step Reader.start
  reader.finished?

end ContentClasses.Json
