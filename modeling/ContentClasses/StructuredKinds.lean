import ContentClasses.Error
import ContentClasses.Text.Blank
import ContentClasses.Text.Split

/-!
# Structured kinds

Rich text, dates and linked items can have a plain or a structured property type. A set says for
which of these kinds the structured type is asked for, one by one or all at once.
-/

namespace ContentClasses

/-- The kinds of elements whose property type is to be structured. -/
structure StructuredKinds where
  all : Bool := false
  richText : Bool := false
  dateTime : Bool := false
  linkedItems : Bool := false
deriving DecidableEq, Repr

namespace StructuredKinds

instance : EmptyCollection StructuredKinds where
  emptyCollection := { all := false }

/-- What is in one of two sets. -/
instance : Union StructuredKinds where
  union a b :=
    { all := a.all || b.all
      richText := a.richText || b.richText
      dateTime := a.dateTime || b.dateTime
      linkedItems := a.linkedItems || b.linkedItems }

/-- The structured type is asked for a kind. Only three kinds have one. -/
def appliesTo (kinds : StructuredKinds) : ElementKind → Bool
  | .richText => kinds.all || kinds.richText
  | .dateTime => kinds.all || kinds.dateTime
  | .linkedItems => kinds.all || kinds.linkedItems
  | _ => false

/-- The members of a set, by name, with their numbers. -/
def members (kinds : StructuredKinds) : List (String × Nat) :=
  [("ALL", 1, kinds.all), ("RICH_TEXT", 2, kinds.richText), ("DATE_TIME", 4, kinds.dateTime),
    ("MODULAR_CONTENT", 8, kinds.linkedItems)].filterMap
    fun (name, bit, isIn) => if isIn then some (name, bit) else none

/-- The names of the members of a set. -/
def names (kinds : StructuredKinds) : List String :=
  kinds.members.map (·.1)

/-- The set as a number, with one binary digit for each member. -/
def bits (kinds : StructuredKinds) : Nat :=
  (kinds.members.map (·.2)).foldr (· + ·) 0

/-- The set that a name without blanks around it stands for. The empty name asks for nothing. -/
def ofWord? (word : String) : Option StructuredKinds :=
  match word with
  | "" => some ∅
  | "True" | "true" | "All" | "all" => some { all := true }
  | "RichText" | "rich_text" => some { richText := true }
  | "DateTime" | "date_time" => some { dateTime := true }
  | "ModularContent" | "modular_content" => some { linkedItems := true }
  | "LinkedItems" | "linked_items" => some { linkedItems := true }
  | _ => none

/-- The set that a name stands for. -/
def ofName (name : String) : Except Error StructuredKinds :=
  match ofWord? (Text.trim name) with
  | some kinds => .ok kinds
  | none => .error (.unknownStructuredKind (Text.trim name))

/-- The union of the sets that the names stand for. The first unknown name is an error. -/
def ofNames : List String → Except Error StructuredKinds
  | [] => .ok ∅
  | name :: names => do
    let first ← ofName name
    let others ← ofNames names
    return first ∪ others

/-- The set of the names between the commas of a text. -/
def ofText (text : String) : Except Error StructuredKinds :=
  ofNames (Text.split ',' text)

end StructuredKinds

end ContentClasses
