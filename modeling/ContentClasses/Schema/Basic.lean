/-!
# Content schemas

The read-only input of a generation: content types and snippets, which are lists of elements.
An element may link content items and then names the content types it allows.
-/

namespace ContentClasses

/-- What an element holds. A kind that is not known keeps its tag, so that it can be reported. -/
inductive ElementKind where
  | text
  | richText
  | number
  | multipleChoice
  | dateTime
  | asset
  | linkedItems
  | subpages
  | taxonomy
  | urlSlug
  | custom
  | guidelines
  | snippet
  | unknown (tag : String)
deriving DecidableEq, Repr

namespace ElementKind

/-- The name under which a kind is written in a schema. -/
def tag : ElementKind → String
  | text => "text"
  | richText => "rich_text"
  | number => "number"
  | multipleChoice => "multiple_choice"
  | dateTime => "date_time"
  | asset => "asset"
  | linkedItems => "modular_content"
  | subpages => "subpages"
  | taxonomy => "taxonomy"
  | urlSlug => "url_slug"
  | custom => "custom"
  | guidelines => "guidelines"
  | snippet => "snippet"
  | unknown tag => tag

/-- The kind that a tag names. Linked items go by two names. -/
def ofTag (tag : String) : ElementKind :=
  match tag with
  | "text" => text
  | "rich_text" => richText
  | "number" => number
  | "multiple_choice" => multipleChoice
  | "date_time" => dateTime
  | "asset" => asset
  | "modular_content" => linkedItems
  | "linked_items" => linkedItems
  | "subpages" => subpages
  | "taxonomy" => taxonomy
  | "url_slug" => urlSlug
  | "custom" => custom
  | "guidelines" => guidelines
  | "snippet" => snippet
  | other => unknown other

/-- An element of this kind holds links to content items. -/
def isItemReference : ElementKind → Bool
  | linkedItems | subpages => true
  | _ => false

end ElementKind

/-- A content type is referred to by its id or by its codename. -/
inductive Reference where
  | id (id : String)
  | codename (codename : String)
deriving DecidableEq, Repr

/-- A reference in words, as messages show it. -/
def Reference.describe : Reference → String
  | id i => "id '" ++ i ++ "'"
  | codename c => "codename '" ++ c ++ "'"

/-- How the value of an item count limit is meant. -/
inductive LimitCondition where
  | atLeast
  | atMost
  | exactly
deriving DecidableEq, Repr

/-- A bound on the number of linked items. -/
structure ItemCountLimit where
  condition : LimitCondition
  value : UInt32
deriving DecidableEq, Repr

namespace ItemCountLimit

/-- The limit that holds where a schema gives none: at least one item. -/
def default : ItemCountLimit where
  condition := .atLeast
  value := 1

/-- The limit that holds for an element with the given entry. -/
def effective (limit? : Option ItemCountLimit) : ItemCountLimit :=
  limit?.getD default

/-- A limit that admits no second item and asks for or admits one. -/
def isSingleItem (limit : ItemCountLimit) : Bool :=
  limit.value == 1 && (limit.condition == .atMost || limit.condition == .exactly)

end ItemCountLimit

/-- One field of a content type. -/
structure Element where
  codename : String
  kind : ElementKind
  id? : Option String := none
  externalId? : Option String := none
  name? : Option String := none
  allowedTypes : List Reference := []
  limit? : Option ItemCountLimit := none
deriving DecidableEq, Repr

/-- A content type with its elements in order. -/
structure ContentType where
  id : String
  codename : String
  name : String
  elements : List Element := []
deriving DecidableEq, Repr

namespace ContentType

/-- The content type with one more element at the end. -/
def addElement (type : ContentType) (element : Element) : ContentType :=
  { type with elements := type.elements ++ [element] }

/-- The content type is the one that the reference names. -/
def matchesReference (type : ContentType) : Reference → Bool
  | .id i => type.id == i
  | .codename c => type.codename == c

end ContentType

/-- A group of elements that content types share. -/
structure Snippet where
  id? : Option String := none
  codename : String
  name? : Option String := none
  elements : List Element := []
deriving DecidableEq, Repr

/-- The snippet with one more element at the end. -/
def Snippet.addElement (snippet : Snippet) (element : Element) : Snippet :=
  { snippet with elements := snippet.elements ++ [element] }

/-- The schema of a project: all its content types and snippets. -/
structure Project where
  contentTypes : List ContentType
  snippets : List Snippet
deriving DecidableEq, Repr

end ContentClasses
