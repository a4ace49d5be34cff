import ContentClasses.Decimal.Binary64
import ContentClasses.Files.Path
import ContentClasses.Files.Tree

/-!
# Setting values

The values that settings have before they are converted to the type of a field, whichever kind of
source they come from, and how a later source lies over an earlier one.
-/

namespace ContentClasses

/-- A value of a setting. -/
inductive Setting where
  | null
  | bool (value : Bool)
  | integer (value : Int)
  | float (value : Binary64)
  | text (value : String)
  | list (items : List Setting)
  | table (entries : List (String × Setting))

namespace Setting

/-- Why settings could not be loaded. -/
inductive Failure where
  | missingFile (path : Path)
  | unknownFormat (path : Path)
  | unreadable (path : Path)
  | malformed (path : Path)
  | wrongType (field : String)
deriving DecidableEq, Repr

/-- A failure in words. -/
def Failure.message : Failure → String
  | missingFile path => "settings file '" ++ path.text ++ "' was not found"
  | unknownFormat path => "settings file '" ++ path.text ++ "' has no known format"
  | unreadable path => "settings file '" ++ path.text ++ "' does not hold UTF-8 text"
  | malformed path => "settings file '" ++ path.text ++ "' is malformed"
  | wrongType field => "setting '" ++ field ++ "' has a value of the wrong type"

/-- The lower case of the letters that have one from a to z: A to Z and the Kelvin sign. -/
def lowerChar (c : Char) : Char :=
  if c = '\u212a' then 'k' else c.toLower

/-- The text with these letters in lower case. -/
def lowercase (s : String) : String :=
  String.ofList (s.toList.map lowerChar)

/-- The text that a value is for a field that holds a text. -/
def toText? : Setting → Option String
  | text s => some s
  | bool b => some (if b then "true" else "false")
  | integer n => some (toString n)
  | float x => some x.text
  | _ => none

/-- The truth value that a value is for a field that holds one. Numbers are true unless they are
zero. -/
def toBool? : Setting → Option Bool
  | bool b => some b
  | integer n => some (n ≠ 0)
  | float x => some !x.isZero
  | text s =>
    let word := lowercase s
    if ["1", "true", "on", "yes"].contains word then some true
    else if ["0", "false", "off", "no"].contains word then some false
    else none
  | _ => none

/-- The texts that a value is for a field that holds a list of them. -/
def toTexts? : Setting → Option (List String)
  | list items => items.mapM toText?
  | _ => none

/-- The entries of a table. Any other value counts as a table without entries. -/
def entries : Setting → List (String × Setting)
  | table entries => entries
  | _ => []

mutual

/-- The value that results when `new` is laid over `old`. A table is laid over a table entry by
entry, and a table without entries over any value changes nothing; everything else replaces what
was there. -/
def overlay (old : Setting) : Setting → Setting
  | table new =>
    match new, old with
    | [], null => table []
    | [], old => old
    | new, old => table (overlayEntries old.entries new)
  | new => new

/-- The entries that result when each of `new` is laid over the entries `old`. -/
def overlayEntries (old : List (String × Setting)) :
    List (String × Setting) → List (String × Setting)
  | [] => old
  | (name, value) :: rest =>
    overlayEntries (Files.assign name (overlay ((old.lookup name).getD null) value) old) rest

end

/-- One step to a value inside a value: an entry of a table, or an item of a list. -/
inductive Step where
  | name (name : String)
  | index (index : Int)
deriving DecidableEq, Repr

/-- The place of the item with an index among `length` items. An index below zero counts from the
end of the list, and no place is before the first. -/
def placeOf (length : Nat) (index : Int) : Nat :=
  (if index < 0 then index + length else index).toNat

/-- The list in which the item at a place is `value`. A list that is too short is filled up. -/
def setItem (place : Nat) (value : Setting) (items : List Setting) : List Setting :=
  (items ++ List.replicate (place + 1 - items.length) null).set place value

/-- The items of a list. Any other value counts as a list without items. -/
def items : Setting → List Setting
  | list items => items
  | _ => []

/-- The value in which `new` is laid over the entry that the steps lead to, or replaces the item
that they lead to. Tables and lists on the way take the place of other values. -/
def overlayAt (old new : Setting) : List Step → Setting
  | [] => old.overlay new
  | .name name :: steps =>
    let inner := (old.entries.lookup name).getD null
    table (Files.assign name (overlayAt inner new steps) old.entries)
  | [.index index] => list (setItem (placeOf old.items.length index) new old.items)
  | .index index :: steps =>
    let place := placeOf old.items.length index
    let inner := (old.items[place]?).getD null
    list (setItem place (overlayAt inner new steps) old.items)

example : placeOf 3 (-1) = 2 := by decide

end Setting

/-- The settings of one source, by key. -/
abbrev Settings := List (String × Setting)

end ContentClasses
