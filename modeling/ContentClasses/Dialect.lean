/-!
# Dialects

Classes are generated in one of two dialects: for reading delivered content, or for managing it.
-/

namespace ContentClasses

/-- What the generated classes are for. -/
inductive Dialect where
  | delivery
  | management
deriving DecidableEq, Repr

namespace Dialect

/-- The name of a dialect. -/
def name : Dialect → String
  | delivery => "delivery"
  | management => "management"

/-- The dialect of that name. -/
def ofName? : String → Option Dialect
  | "delivery" => some delivery
  | "management" => some management
  | _ => none

/-- The type of a collection of items. Both dialects have the same. -/
def collectionOf (_ : Dialect) (itemType : String) : String :=
  "IEnumerable<" ++ itemType ++ ">"

/-- The type of the property with the attributes of an item, in the dialect that has one. -/
def systemType? : Dialect → Option String
  | delivery => some "IContentItemSystemAttributes"
  | management => none

end Dialect

end ContentClasses
