import ContentClasses.Json.Record
import ContentClasses.Schema.Basic

/-!
# Schemas in JSON

Reading schemas from JSON values and writing them. Every reader takes the number of levels of its
document that are left for the value, since a reference is chosen between two shapes and has to be
held for that.
-/

namespace ContentClasses

open Json (Failure Field Record)

/-- Reads the kind of an element from its tag. -/
def ElementKind.ofJson (value : Json) : Except Failure ElementKind :=
  ElementKind.ofTag <$> Json.asText value

/-- A kind is written as its tag. -/
def ElementKind.toJson (kind : ElementKind) : Json :=
  .ofString kind.tag

namespace Reference

/-- The text of the only member of that name. -/
def textOf? (name : String) (members : List (Json.Text × Json)) : Option String :=
  match members.filter (·.1 == some name) with
  | [(_, .string text)] => text
  | _ => none

/-- Reads a reference: an id where there is one, a codename otherwise. -/
def ofJson (room : Nat) (value : Json) : Except Failure Reference :=
  if value.isHeld room then
    match value with
    | .object members =>
      match textOf? "id" members, textOf? "codename" members with
      | some i, _ => .ok (.id i)
      | none, some c => .ok (.codename c)
      | none, none => .error (.unexpected "an id or a codename")
    | _ => .error (.unexpected "an id or a codename")
  else .error .notHeld

/-- A reference is an object with one member. -/
def toJson : Reference → Json
  | id i => .ofMembers [("id", .ofString i)]
  | codename c => .ofMembers [("codename", .ofString c)]

end Reference

namespace LimitCondition

/-- The name of a condition. -/
def name : LimitCondition → String
  | atLeast => "at_least"
  | atMost => "at_most"
  | exactly => "exactly"

/-- The condition of that name. -/
def ofName? : String → Option LimitCondition
  | "at_least" => some atLeast
  | "at_most" => some atMost
  | "exactly" => some exactly
  | _ => none

end LimitCondition

namespace ItemCountLimit

/-- The fields of a limit. -/
def fields : List Field :=
  [{ name := "condition" }, { name := "value" }]

/-- Reads a limit. -/
def ofJson (value : Json) : Except Failure ItemCountLimit := do
  let record ← value.toRecord fields
  let condition ← record.required "condition" (Json.asName LimitCondition.ofName?)
  let value ← record.required "value" Json.asCount
  return { condition, value }

/-- A limit is written with its two fields. -/
def toJson (limit : ItemCountLimit) : Json :=
  .ofMembers [("condition", .ofString limit.condition.name), ("value", .ofNat limit.value.toNat)]

end ItemCountLimit

namespace Element

/-- The fields of an element. -/
def fields : List Field :=
  [{ name := "codename" }, { name := "type" }, { name := "id" }, { name := "external_id" },
    { name := "name" }, { name := "allowed_content_types", alias? := some "allowed_types" },
    { name := "item_count_limit" }]

/-- Reads an element. -/
def ofJson (room : Nat) (value : Json) : Except Failure Element := do
  let record ← value.toRecord fields
  let codename ← record.required "codename" Json.asText
  let kind ← record.required "type" ElementKind.ofJson
  let id? ← record.optional "id" Json.asText
  let externalId? ← record.optional "external_id" Json.asText
  let name? ← record.optional "name" Json.asText
  let allowedTypes ←
    record.withDefault "allowed_content_types" [] (Json.asList (Reference.ofJson (room - 2)))
  let limit? ← record.optional "item_count_limit" ItemCountLimit.ofJson
  return { codename, kind, id?, externalId?, name?, allowedTypes, limit? }

/-- An element is written with the fields that are set. -/
def toJson (element : Element) : Json :=
  let allowed :=
    if element.allowedTypes.isEmpty then []
    else [("allowed_content_types", Json.array (element.allowedTypes.map Reference.toJson))]
  .ofMembers
    ([("codename", .ofString element.codename), ("type", element.kind.toJson)] ++
      Json.memberIfSet "id" .ofString element.id? ++
      Json.memberIfSet "external_id" .ofString element.externalId? ++
      Json.memberIfSet "name" .ofString element.name? ++ allowed ++
      Json.memberIfSet "item_count_limit" ItemCountLimit.toJson element.limit?)

end Element

/-- The value of a list of elements. -/
def elementsToJson (elements : List Element) : Json :=
  .array (elements.map Element.toJson)

namespace ContentType

/-- The fields of a content type. -/
def fields : List Field :=
  [{ name := "id" }, { name := "codename" }, { name := "name" }, { name := "elements" }]

/-- Reads a content type. -/
def ofJson (room : Nat) (value : Json) : Except Failure ContentType := do
  let record ← value.toRecord fields
  let id ← record.required "id" Json.asText
  let codename ← record.required "codename" Json.asText
  let name ← record.required "name" Json.asText
  let elements ← record.withDefault "elements" [] (Json.asList (Element.ofJson (room - 2)))
  return { id, codename, name, elements }

/-- A content type is written with all its fields. -/
def toJson (type : ContentType) : Json :=
  .ofMembers
    [("id", .ofString type.id), ("codename", .ofString type.codename),
      ("name", .ofString type.name), ("elements", elementsToJson type.elements)]

end ContentType

namespace Snippet

/-- The fields of a snippet. -/
def fields : List Field :=
  [{ name := "id" }, { name := "codename" }, { name := "name" }, { name := "elements" }]

/-- Reads a snippet. -/
def ofJson (room : Nat) (value : Json) : Except Failure Snippet := do
  let record ← value.toRecord fields
  let id? ← record.optional "id" Json.asText
  let codename ← record.required "codename" Json.asText
  let name? ← record.optional "name" Json.asText
  let elements ← record.withDefault "elements" [] (Json.asList (Element.ofJson (room - 2)))
  return { id?, codename, name?, elements }

/-- A snippet is written with its codename, its elements and the fields that are set. -/
def toJson (snippet : Snippet) : Json :=
  .ofMembers
    (Json.memberIfSet "id" .ofString snippet.id? ++ [("codename", .ofString snippet.codename)] ++
      Json.memberIfSet "name" .ofString snippet.name? ++
      [("elements", elementsToJson snippet.elements)])

end Snippet

end ContentClasses
