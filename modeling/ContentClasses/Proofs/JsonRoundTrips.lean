import ContentClasses.Config.Codec
import ContentClasses.Diagnostic
import ContentClasses.Proofs.JsonRecords
import ContentClasses.Schema.Codec

/-!
# Schemas, reports and configurations that are written and read

What is written as JSON is read back as it was, unless it names an unknown kind by the tag of a
known one, and no value that is read does. `json_round_trips` says so of every type with a JSON
form: to write a value that has been read, in whatever way it was written at first, and to read it
again changes nothing.
-/

namespace ContentClasses

open Json (Failure Field given)
open Json.Record (required_given optional_given withDefault_given withDefault_absent)

/-- The tags of the known kinds of elements. One kind has two. -/
def knownTags : List String :=
  ["text", "rich_text", "number", "multiple_choice", "date_time", "asset", "modular_content",
    "linked_items", "subpages", "taxonomy", "url_slug", "custom", "guidelines", "snippet"]

/-- A kind is unknown only by the tag of no known one. -/
def ElementKind.Genuine (kind : ElementKind) : Prop :=
  ∀ tag, kind = .unknown tag → tag ∉ knownTags

/-- No element has the tag of a known kind without being of that kind. -/
def ElementsGenuine (elements : List Element) : Prop :=
  ∀ element ∈ elements, element.kind.Genuine

/-- What is written is read back as it was, if it is genuine. What is read is genuine and, when it
is written, read again as it was. -/
def RoundTrips {α : Type} (read : Json → Except Failure α) (write : α → Json)
    (Genuine : α → Prop) : Prop :=
  (∀ a, Genuine a → read (write a) = .ok a) ∧
    ∀ value a, read value = .ok a → Genuine a ∧ read (write a) = .ok a

section RoundTrips
variable {α : Type} {read : Json → Except Failure α} {write : α → Json} {Genuine : α → Prop}

/-- It is enough that what is genuine is read back, and that only genuine values are read. -/
lemma roundTrips_of (written : ∀ a, Genuine a → read (write a) = .ok a)
    (genuine : ∀ value a, read value = .ok a → Genuine a) : RoundTrips read write Genuine :=
  ⟨written, fun value a done => ⟨genuine value a done, written a (genuine value a done)⟩⟩

/-- Where everything is read back, all values are genuine. -/
lemma roundTrips_of_all (written : ∀ a, read (write a) = .ok a) :
    RoundTrips read write fun _ => True :=
  roundTrips_of (fun a _ => written a) fun _ _ _ => trivial

end RoundTrips

variable {room : Nat} {value : Json}

namespace ElementKind
variable {kind : ElementKind}

/-- A tag names an unknown kind exactly when it is the tag of no known one. -/
lemma ofTag_eq_unknown_iff {tag : String} : ofTag tag = unknown tag ↔ tag ∉ knownTags := by
  unfold ofTag knownTags
  split <;> simp_all

/-- A tag names an unknown kind only if it is the tag of no known one. -/
lemma genuine_ofTag (tag : String) : (ofTag tag).Genuine := by
  intro other same
  unfold ofTag at same
  split at same <;> simp_all [knownTags]

/-- The tag of a kind names the kind. -/
lemma ofTag_tag (genuine : kind.Genuine) : ofTag kind.tag = kind := by
  cases kind with
  | unknown tag => exact ofTag_eq_unknown_iff.mpr (genuine tag rfl)
  | _ => rfl

/-- A genuine kind is read back from its tag. -/
lemma ofJson_toJson (genuine : kind.Genuine) : ofJson kind.toJson = .ok kind := by
  rw [ofJson, toJson, Json.asText_ofString]
  exact congrArg _ (ofTag_tag genuine)

/-- A kind that is read comes from a tag, so that it is unknown only by one that nobody knows. -/
lemma genuine_of_read (done : ofJson value = .ok kind) : kind.Genuine := by
  rw [ofJson] at done
  cases text : Json.asText value with
  | error failure =>
    rw [text] at done
    cases done
  | ok tag =>
    rw [text] at done
    cases done
    exact genuine_ofTag tag

end ElementKind

namespace Reference

/-- A reference needs one level of its document. -/
lemma ofJson_toJson (enough : 1 ≤ room) (reference : Reference) :
    ofJson room reference.toJson = .ok reference := by
  have held : reference.toJson.isHeld room := by
    cases reference <;>
      simpa [toJson, Json.isHeld, Json.ofMembers, Json.ofString, Json.depth, Json.depthOfMembers,
        Json.isPlain, Json.membersArePlain] using enough
  unfold ofJson
  rw [if_pos held]
  cases reference <;> simp [toJson, textOf?, Json.ofMembers, Json.ofString]

end Reference

lemma LimitCondition.asName_name (condition : LimitCondition) :
    Json.asName ofName? (.ofString condition.name) = .ok condition := by
  cases condition <;> rfl

lemma Json.asCount_ofNat (n : UInt32) : asCount (.ofNat n.toNat) = .ok n := by
  have small : n.toNat < UInt32.size := n.toNat_lt
  simp [asCount, Json.ofNat, Number.ofNat, Number.integer?, small]

namespace ItemCountLimit

/-- The fields of a limit with what is written for them. -/
def row (limit : ItemCountLimit) : List (String × Option Json) :=
  [("condition", some (.ofString limit.condition.name)), ("value", some (.ofNat limit.value.toNat))]

lemma apart_fields : Json.Apart fields :=
  ⟨by decide, by decide⟩

lemma toJson_eq (limit : ItemCountLimit) : limit.toJson = .ofMembers (given limit.row) :=
  rfl

/-- A limit is read back from its two fields. -/
lemma ofJson_toJson (limit : ItemCountLimit) : ofJson limit.toJson = .ok limit := by
  have nodup : (limit.row.map Prod.fst).Nodup := apart_fields.nodup
  rw [toJson_eq]
  refine bind_eq_ok.mpr ⟨given limit.row, Json.toRecord_given apart_fields rfl, ?_⟩
  refine bind_eq_ok.mpr ⟨_, required_given nodup rfl limit.condition.asName_name, ?_⟩
  refine bind_eq_ok.mpr ⟨_, required_given nodup rfl (Json.asCount_ofNat limit.value), ?_⟩
  rfl

end ItemCountLimit

namespace Element
variable {element : Element}

/-- The fields of an element with what is written for those that are set. -/
def row (element : Element) : List (String × Option Json) :=
  [("codename", some (.ofString element.codename)), ("type", some element.kind.toJson),
    ("id", element.id?.map .ofString), ("external_id", element.externalId?.map .ofString),
    ("name", element.name?.map .ofString),
    ("allowed_content_types",
      if element.allowedTypes.isEmpty then none
      else some (.array (element.allowedTypes.map Reference.toJson))),
    ("item_count_limit", element.limit?.map ItemCountLimit.toJson)]

lemma apart_fields : Json.Apart fields :=
  ⟨by decide, by decide⟩

lemma toJson_eq (element : Element) : element.toJson = .ofMembers (given element.row) := by
  have allowed : (if element.allowedTypes.isEmpty then []
      else [("allowed_content_types", Json.array (element.allowedTypes.map Reference.toJson))]) =
      given [("allowed_content_types",
        if element.allowedTypes.isEmpty then none
        else some (.array (element.allowedTypes.map Reference.toJson)))] := by
    split <;> rfl
  rw [toJson, allowed, Json.memberIfSet_eq, Json.memberIfSet_eq, Json.memberIfSet_eq,
    Json.memberIfSet_eq]
  simp only [List.append_assoc, ← Json.given_append]
  rfl

/-- An element with a genuine kind is read back. Its references need three levels of the
document. -/
lemma ofJson_toJson (enough : 3 ≤ room) (genuine : element.kind.Genuine) :
    ofJson room element.toJson = .ok element := by
  have nodup : (element.row.map Prod.fst).Nodup := apart_fields.nodup
  rw [toJson_eq]
  refine bind_eq_ok.mpr ⟨given element.row, Json.toRecord_given apart_fields rfl, ?_⟩
  refine bind_eq_ok.mpr ⟨_, required_given nodup rfl (Json.asText_ofString _), ?_⟩
  refine bind_eq_ok.mpr ⟨_, required_given nodup rfl (ElementKind.ofJson_toJson genuine), ?_⟩
  refine bind_eq_ok.mpr ⟨_, optional_given nodup rfl Json.asText_ofString nofun, ?_⟩
  refine bind_eq_ok.mpr ⟨_, optional_given nodup rfl Json.asText_ofString nofun, ?_⟩
  refine bind_eq_ok.mpr ⟨_, optional_given nodup rfl Json.asText_ofString nofun, ?_⟩
  refine bind_eq_ok.mpr ⟨element.allowedTypes, ?_, ?_⟩
  · cases none : element.allowedTypes.isEmpty with
    | true =>
      rw [List.isEmpty_iff.mp none]
      exact withDefault_absent nodup (by rw [row, none]; rfl)
    | false =>
      refine withDefault_given nodup (by rw [row, none]; rfl)
        (Json.asList_map fun reference _ => ?_)
      exact reference.ofJson_toJson (by omega)
  refine bind_eq_ok.mpr ⟨_, optional_given nodup rfl ItemCountLimit.ofJson_toJson nofun, ?_⟩
  rfl

/-- An element that is read has a kind that is read from its tag. -/
lemma genuine_of_read (done : ofJson room value = .ok element) : element.kind.Genuine := by
  obtain ⟨record, -, done⟩ := bind_eq_ok.mp done
  obtain ⟨codename, -, done⟩ := bind_eq_ok.mp done
  obtain ⟨kind, kind_read, done⟩ := bind_eq_ok.mp done
  obtain ⟨id?, -, done⟩ := bind_eq_ok.mp done
  obtain ⟨externalId?, -, done⟩ := bind_eq_ok.mp done
  obtain ⟨name?, -, done⟩ := bind_eq_ok.mp done
  obtain ⟨allowedTypes, -, done⟩ := bind_eq_ok.mp done
  obtain ⟨limit?, -, done⟩ := bind_eq_ok.mp done
  cases done
  obtain ⟨tag, -, tag_read⟩ := Json.Record.required_eq_ok.mp kind_read
  exact ElementKind.genuine_of_read tag_read

end Element

section Elements
variable {elements : List Element} {record : Json.Record}

/-- A list of elements is read back element by element. -/
lemma asList_elementsToJson (enough : 3 ≤ room) (genuine : ElementsGenuine elements) :
    Json.asList (Element.ofJson room) (elementsToJson elements) = .ok elements :=
  Json.asList_map fun element mem => Element.ofJson_toJson enough (genuine element mem)

/-- The elements of a record are read from its list, or there are none. -/
lemma elementsGenuine_of_read {name : String}
    (done : record.withDefault name [] (Json.asList (Element.ofJson room)) = .ok elements) :
    ElementsGenuine elements := by
  intro element mem
  obtain ⟨-, rfl⟩ | ⟨value, -, list_read⟩ := Json.Record.withDefault_eq_ok.mp done
  · cases mem
  · obtain ⟨item, item_read⟩ := Json.of_mem_asList list_read mem
    exact Element.genuine_of_read item_read

/-- What is made of three fields and then of a list of elements has the elements that are read,
whatever the three fields are. -/
lemma elementsGenuine_of_fields {α β γ δ : Type} {fields : List Field} {name : String}
    {first : Json.Record → Except Failure β} {second : Json.Record → Except Failure γ}
    {third : Json.Record → Except Failure δ} {make : β → γ → δ → List Element → α} {a : α}
    (elementsOf : α → List Element)
    (own : ∀ b c d elements, elementsOf (make b c d elements) = elements)
    (done : (do
      let record ← value.toRecord fields
      let b ← first record
      let c ← second record
      let d ← third record
      let elements ← record.withDefault name [] (Json.asList (Element.ofJson room))
      return make b c d elements) = .ok a) :
    ElementsGenuine (elementsOf a) := by
  obtain ⟨record, -, done⟩ := bind_eq_ok.mp done
  obtain ⟨b, -, done⟩ := bind_eq_ok.mp done
  obtain ⟨c, -, done⟩ := bind_eq_ok.mp done
  obtain ⟨d, -, done⟩ := bind_eq_ok.mp done
  obtain ⟨elements, elements_read, done⟩ := bind_eq_ok.mp done
  cases done
  rw [own]
  exact elementsGenuine_of_read elements_read

end Elements

namespace ContentType
variable {type : ContentType}

/-- No element of the content type has the tag of a known kind without being of that kind. -/
def Genuine (type : ContentType) : Prop :=
  ElementsGenuine type.elements

/-- The fields of a content type with what is written for them. -/
def row (type : ContentType) : List (String × Option Json) :=
  [("id", some (.ofString type.id)), ("codename", some (.ofString type.codename)),
    ("name", some (.ofString type.name)), ("elements", some (elementsToJson type.elements))]

lemma apart_fields : Json.Apart fields :=
  ⟨by decide, by decide⟩

lemma toJson_eq (type : ContentType) : type.toJson = .ofMembers (given type.row) :=
  rfl

/-- A content type is read back, if its elements are: the list and the object around them take two
levels more. -/
lemma ofJson_toJson (enough : 5 ≤ room) (genuine : type.Genuine) :
    ofJson room type.toJson = .ok type := by
  have nodup : (type.row.map Prod.fst).Nodup := apart_fields.nodup
  have elements : Json.asList (Element.ofJson (room - 2)) (elementsToJson type.elements) =
      .ok type.elements := asList_elementsToJson (by omega) genuine
  rw [toJson_eq]
  refine bind_eq_ok.mpr ⟨given type.row, Json.toRecord_given apart_fields rfl, ?_⟩
  refine bind_eq_ok.mpr ⟨_, required_given nodup rfl (Json.asText_ofString _), ?_⟩
  refine bind_eq_ok.mpr ⟨_, required_given nodup rfl (Json.asText_ofString _), ?_⟩
  refine bind_eq_ok.mpr ⟨_, required_given nodup rfl (Json.asText_ofString _), ?_⟩
  refine bind_eq_ok.mpr ⟨_, withDefault_given nodup rfl elements, ?_⟩
  rfl

/-- A content type that is read has elements that were read. -/
lemma genuine_of_read (done : ofJson room value = .ok type) : type.Genuine :=
  elementsGenuine_of_fields ContentType.elements (fun _ _ _ _ => rfl) done

end ContentType

namespace Snippet
variable {snippet : Snippet}

/-- No element of the snippet has the tag of a known kind without being of that kind. -/
def Genuine (snippet : Snippet) : Prop :=
  ElementsGenuine snippet.elements

/-- The fields of a snippet with what is written for those that are set. -/
def row (snippet : Snippet) : List (String × Option Json) :=
  [("id", snippet.id?.map .ofString), ("codename", some (.ofString snippet.codename)),
    ("name", snippet.name?.map .ofString), ("elements", some (elementsToJson snippet.elements))]

lemma apart_fields : Json.Apart fields :=
  ⟨by decide, by decide⟩

lemma toJson_eq (snippet : Snippet) : snippet.toJson = .ofMembers (given snippet.row) := by
  have codename (rest : Json.Record) : [("codename", Json.ofString snippet.codename)] ++ rest =
      given [("codename", some (.ofString snippet.codename))] ++ rest := rfl
  have elements : [("elements", elementsToJson snippet.elements)] =
      given [("elements", some (elementsToJson snippet.elements))] := rfl
  rw [toJson, Json.memberIfSet_eq, Json.memberIfSet_eq, elements]
  simp only [List.append_assoc, codename, ← Json.given_append]
  rfl

/-- A snippet is read back, if its elements are. -/
lemma ofJson_toJson (enough : 5 ≤ room) (genuine : snippet.Genuine) :
    ofJson room snippet.toJson = .ok snippet := by
  have nodup : (snippet.row.map Prod.fst).Nodup := apart_fields.nodup
  have elements : Json.asList (Element.ofJson (room - 2)) (elementsToJson snippet.elements) =
      .ok snippet.elements := asList_elementsToJson (by omega) genuine
  rw [toJson_eq]
  refine bind_eq_ok.mpr ⟨given snippet.row, Json.toRecord_given apart_fields rfl, ?_⟩
  refine bind_eq_ok.mpr ⟨_, optional_given nodup rfl Json.asText_ofString nofun, ?_⟩
  refine bind_eq_ok.mpr ⟨_, required_given nodup rfl (Json.asText_ofString _), ?_⟩
  refine bind_eq_ok.mpr ⟨_, optional_given nodup rfl Json.asText_ofString nofun, ?_⟩
  refine bind_eq_ok.mpr ⟨_, withDefault_given nodup rfl elements, ?_⟩
  rfl

/-- A snippet that is read has elements that were read. -/
lemma genuine_of_read (done : ofJson room value = .ok snippet) : snippet.Genuine :=
  elementsGenuine_of_fields Snippet.elements (fun _ _ _ _ => rfl) done

end Snippet

namespace Diagnostic

lemma Code.asName_name (code : Code) : Json.asName ofName? (.ofString code.name) = .ok code := by
  cases code <;> rfl

/-- The fields of a diagnostic with what is written for those that are set. -/
def row (d : Diagnostic) : List (String × Option Json) :=
  [("code", some (.ofString d.code.name)), ("message", some (.ofString d.message)),
    ("content_type", d.contentType?.map .ofString), ("element", d.element?.map .ofString)]

lemma apart_fields : Json.Apart fields :=
  ⟨by decide, by decide⟩

lemma toJson_eq (d : Diagnostic) : d.toJson = .ofMembers (given d.row) := by
  rw [toJson, members, Json.memberIfSet_eq, Json.memberIfSet_eq]
  simp only [List.append_assoc, ← Json.given_append]
  rfl

/-- A diagnostic is read back with the fields that are not set. -/
lemma ofJson_toJson (d : Diagnostic) : ofJson d.toJson = .ok d := by
  have nodup : (d.row.map Prod.fst).Nodup := apart_fields.nodup
  rw [toJson_eq]
  refine bind_eq_ok.mpr ⟨given d.row, Json.toRecord_given apart_fields rfl, ?_⟩
  refine bind_eq_ok.mpr ⟨_, required_given nodup rfl d.code.asName_name, ?_⟩
  refine bind_eq_ok.mpr ⟨_, required_given nodup rfl (Json.asText_ofString _), ?_⟩
  refine bind_eq_ok.mpr ⟨_, optional_given nodup rfl Json.asText_ofString nofun, ?_⟩
  refine bind_eq_ok.mpr ⟨_, optional_given nodup rfl Json.asText_ofString nofun, ?_⟩
  rfl

end Diagnostic

namespace Diagnostics

/-- The field of a report with what is written for it. -/
def row (report : Diagnostics) : List (String × Option Json) :=
  [("items", some (.array (report.items.map Diagnostic.toJson)))]

lemma toJson_eq (report : Diagnostics) : report.toJson = .ofMembers (given report.row) :=
  rfl

/-- A report is read back diagnostic by diagnostic. -/
lemma ofJson_toJson (report : Diagnostics) : ofJson report.toJson = .ok report := by
  have items : Json.asList Diagnostic.ofJson (.array (report.items.map Diagnostic.toJson)) =
      .ok report.items := Json.asList_map fun d _ => d.ofJson_toJson
  have apart : Json.Apart [{ name := "items" }] := ⟨by decide, by decide⟩
  have nodup : (report.row.map Prod.fst).Nodup := apart.nodup
  rw [toJson_eq]
  refine bind_eq_ok.mpr ⟨given report.row, Json.toRecord_given apart rfl, ?_⟩
  refine bind_eq_ok.mpr ⟨_, required_given nodup rfl items, ?_⟩
  rfl

end Diagnostics

namespace Config

/-- The fields of a configuration with what is written for them. -/
def row (config : Config) : List (String × Option Json) :=
  [("project_id", some (.ofString config.projectId)),
    ("namespace", some (.ofString config.namespaceName)),
    ("output_dir", some config.outputDir.toJson), ("schema_dir", some config.schemaDir.toJson),
    ("file_name_suffix", some (.ofString config.fileNameSuffix)),
    ("management_api", some (.bool config.managementApi)),
    ("extended_models", some (.bool config.extendedModels)),
    ("structured_model", some (.ofStrings config.structuredModel)),
    ("with_type_provider", some (.bool config.withTypeProvider))]

/-- No two fields of a configuration go by one name. -/
lemma apart_fields : Json.Apart fields :=
  ⟨by decide, by decide⟩

/-- A configuration is written as the row of all its fields. -/
lemma toJson_eq (config : Config) : config.toJson = .ofMembers (given config.row) :=
  rfl

/-- A configuration is read back from its nine fields. -/
lemma ofJson_toJson (config : Config) : ofJson config.toJson = .ok config := by
  have nodup : (config.row.map Prod.fst).Nodup := apart_fields.nodup
  have path (p : Path) : Path.ofJson p.toJson = .ok p := rfl
  have flag (b : Bool) : Json.asBool (.bool b) = .ok b := rfl
  have names : Json.asList Json.asText (.ofStrings config.structuredModel) =
      .ok config.structuredModel := Json.asList_map fun name _ => Json.asText_ofString name
  rw [toJson_eq]
  refine bind_eq_ok.mpr ⟨given config.row, Json.toRecord_given apart_fields rfl, ?_⟩
  refine bind_eq_ok.mpr ⟨_, withDefault_given nodup rfl (Json.asText_ofString _), ?_⟩
  refine bind_eq_ok.mpr ⟨_, withDefault_given nodup rfl (Json.asText_ofString _), ?_⟩
  refine bind_eq_ok.mpr ⟨_, withDefault_given nodup rfl (path _), ?_⟩
  refine bind_eq_ok.mpr ⟨_, withDefault_given nodup rfl (path _), ?_⟩
  refine bind_eq_ok.mpr ⟨_, withDefault_given nodup rfl (Json.asText_ofString _), ?_⟩
  refine bind_eq_ok.mpr ⟨_, withDefault_given nodup rfl (flag _), ?_⟩
  refine bind_eq_ok.mpr ⟨_, withDefault_given nodup rfl (flag _), ?_⟩
  refine bind_eq_ok.mpr ⟨_, withDefault_given nodup rfl names, ?_⟩
  refine bind_eq_ok.mpr ⟨_, withDefault_given nodup rfl (flag _), ?_⟩
  rfl

end Config

/-- Everything with a JSON form is written and read back as it was, unless it names an unknown kind
by the tag of a known one; nothing that is read does. So a document that is accepted, with whatever
second names, nulls and fields that are left out, is read, written and read again as it was read at
first. A content type in a document of its own or in a list has enough levels of it. -/
theorem json_round_trips (enough : 5 ≤ room) :
    RoundTrips (ContentType.ofJson room) ContentType.toJson ContentType.Genuine ∧
      RoundTrips (Snippet.ofJson room) Snippet.toJson Snippet.Genuine ∧
      RoundTrips (Element.ofJson room) Element.toJson (fun element => element.kind.Genuine) ∧
      RoundTrips ElementKind.ofJson ElementKind.toJson ElementKind.Genuine ∧
      RoundTrips ItemCountLimit.ofJson ItemCountLimit.toJson (fun _ => True) ∧
      RoundTrips (Reference.ofJson room) Reference.toJson (fun _ => True) ∧
      RoundTrips Diagnostics.ofJson Diagnostics.toJson (fun _ => True) ∧
      RoundTrips Config.ofJson Config.toJson (fun _ => True) := by
  refine ⟨?types, ?snippets, ?elements, ?kinds, ?limits, ?references, ?reports, ?configs⟩
  case types =>
    exact roundTrips_of (fun _ => ContentType.ofJson_toJson enough)
      fun _ _ => ContentType.genuine_of_read
  case snippets =>
    exact roundTrips_of (fun _ => Snippet.ofJson_toJson enough) fun _ _ => Snippet.genuine_of_read
  case elements =>
    exact roundTrips_of (fun _ => Element.ofJson_toJson (by omega))
      fun _ _ => Element.genuine_of_read
  case kinds =>
    exact roundTrips_of (fun _ => ElementKind.ofJson_toJson) fun _ _ => ElementKind.genuine_of_read
  case limits => exact roundTrips_of_all ItemCountLimit.ofJson_toJson
  case references => exact roundTrips_of_all (Reference.ofJson_toJson (by omega))
  case reports => exact roundTrips_of_all Diagnostics.ofJson_toJson
  case configs => exact roundTrips_of_all Config.ofJson_toJson

/-- A content type with a kind under its second tag, an unknown kind, allowed types under the second
name of their field, and a null. -/
def shelfDocument : Json :=
  .ofMembers [("codename", .ofString "shelf"), ("name", .ofString "Shelf"), ("id", .ofString "t1"),
    ("elements", .array
      [.ofMembers [("type", .ofString "linked_items"), ("codename", .ofString "books"),
          ("name", .null),
          ("allowed_types", .array [.ofMembers [("codename", .ofString "book")]])],
        .ofMembers [("codename", .ofString "place"), ("type", .ofString "hologram")]])]

/-- The content type of that document. -/
def shelf : ContentType where
  id := "t1"
  codename := "shelf"
  name := "Shelf"
  elements :=
    [{ codename := "books", kind := .linkedItems, allowedTypes := [.codename "book"] },
      { codename := "place", kind := .unknown "hologram" }]

/-- The document with other spellings is accepted, and its content type is read back from the usual
one. -/
theorem shelf_round_trips :
    5 ≤ Json.maxDepth ∧ ContentType.ofJson Json.maxDepth shelfDocument = .ok shelf ∧
      ContentType.ofJson Json.maxDepth shelf.toJson = .ok shelf ∧ shelf.Genuine := by
  have enough : 5 ≤ Json.maxDepth := by decide
  have accepted : ContentType.ofJson Json.maxDepth shelfDocument = .ok shelf := by decide
  have types := (json_round_trips enough).1
  obtain ⟨genuine, again⟩ := types.2 shelfDocument shelf accepted
  exact ⟨enough, accepted, again, genuine⟩

end ContentClasses
