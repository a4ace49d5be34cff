import ContentClasses.Json.Record

/-!
# Diagnostics

The warnings of a generation. Each says in words what was left out; the wording is fixed, since
other tools look for it.
-/

namespace ContentClasses

namespace Diagnostic

/-- What a diagnostic is about. -/
inductive Code where
  | skippedContentType
  | invalidElementIdentifier
  | duplicateElement
  | unknownElementType
  | noContentTypes
deriving DecidableEq, Repr

namespace Code

/-- The short text of a code. -/
def text : Code → String
  | skippedContentType => "W001"
  | invalidElementIdentifier => "W002"
  | duplicateElement => "W003"
  | unknownElementType => "W004"
  | noContentTypes => "W005"

/-- The name of a code in a report. -/
def name : Code → String
  | skippedContentType => "SkippedContentType"
  | invalidElementIdentifier => "InvalidElementIdentifier"
  | duplicateElement => "DuplicateElement"
  | unknownElementType => "UnknownElementType"
  | noContentTypes => "NoContentTypes"

/-- The code of that name. -/
def ofName? : String → Option Code
  | "SkippedContentType" => some skippedContentType
  | "InvalidElementIdentifier" => some invalidElementIdentifier
  | "DuplicateElement" => some duplicateElement
  | "UnknownElementType" => some unknownElementType
  | "NoContentTypes" => some noContentTypes
  | _ => none

end Code

end Diagnostic

/-- A warning, with the content type and the element that it is about. -/
structure Diagnostic where
  code : Diagnostic.Code
  message : String
  contentType? : Option String := none
  element? : Option String := none
deriving DecidableEq, Repr

namespace Diagnostic

/-- No class name can be made from the codename of a content type. -/
def skippedContentType (codename : String) : Diagnostic where
  code := .skippedContentType
  message :=
    "Skipping Content Type '" ++ codename ++ "'. Can't create a valid identifier from its name."
  contentType? := some codename

/-- No property name can be made from the codename of an element. -/
def invalidElementIdentifier (contentType codename : String) : Diagnostic where
  code := .invalidElementIdentifier
  message := "Can't create a valid identifier from '" ++ codename ++ "'. Skipping element."
  contentType? := some contentType
  element? := some codename

/-- A class already has a property for the codename of an element. -/
def duplicateElement (className codename : String) : Diagnostic where
  code := .duplicateElement
  message :=
    "Element '" ++ codename ++ "' is already present in Content Type '" ++ className ++ "'."
  contentType? := some className
  element? := some codename

/-- There is no property type for the kind of an element. -/
def unknownElementType (kind className codename : String) : Diagnostic where
  code := .unknownElementType
  message :=
    "Skipping unknown Content Element type '" ++ kind ++ "'. (Content Type: '" ++ className ++
      "', Element Codename: '" ++ codename ++ "')."
  contentType? := some className
  element? := some codename

/-- No class came out of the whole project. -/
def noContentTypes (project : String) : Diagnostic where
  code := .noContentTypes
  message := "No content type available for the project (" ++ project ++ ")."

/-- The fields of a diagnostic. -/
def fields : List Json.Field :=
  [{ name := "code" }, { name := "message" }, { name := "content_type" }, { name := "element" }]

/-- Reads a diagnostic. -/
def ofJson (value : Json) : Except Json.Failure Diagnostic := do
  let record ← value.toRecord fields
  let code ← record.required "code" (Json.asName Code.ofName?)
  let message ← record.required "message" Json.asText
  let contentType? ← record.optional "content_type" Json.asText
  let element? ← record.optional "element" Json.asText
  return { code, message, contentType?, element? }

/-- The fields of a diagnostic that are set, with their names. -/
def members (d : Diagnostic) : List (String × Json) :=
  [("code", .ofString d.code.name), ("message", .ofString d.message)] ++
    Json.memberIfSet "content_type" .ofString d.contentType? ++
    Json.memberIfSet "element" .ofString d.element?

/-- A diagnostic is written with the fields that are set. -/
def toJson (d : Diagnostic) : Json :=
  .ofMembers d.members

end Diagnostic

/-- The warnings of a generation in the order in which they were reported. -/
structure Diagnostics where
  items : List Diagnostic := []
deriving DecidableEq, Repr

namespace Diagnostics

/-- The report with one more warning at its end. -/
def add (report : Diagnostics) (d : Diagnostic) : Diagnostics :=
  { items := report.items ++ [d] }

/-- The messages in order. -/
def messages (report : Diagnostics) : List String :=
  report.items.map (·.message)

/-- The number of warnings with that code. -/
def count (report : Diagnostics) (code : Diagnostic.Code) : Nat :=
  report.items.countP (·.code == code)

/-- Reads a report. -/
def ofJson (value : Json) : Except Json.Failure Diagnostics := do
  let record ← value.toRecord [{ name := "items" }]
  let items ← record.required "items" (Json.asList Diagnostic.ofJson)
  return { items }

/-- A report is written with its items. -/
def toJson (report : Diagnostics) : Json :=
  .ofMembers [("items", .array (report.items.map Diagnostic.toJson))]

end Diagnostics

end ContentClasses
