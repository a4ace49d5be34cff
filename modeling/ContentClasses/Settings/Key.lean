import ContentClasses.Decimal.Numeral
import ContentClasses.Settings.Value

/-!
# Keys of settings

A key is a name, or a path into a value: names with a dot between them, and behind a name any
number of indices in square brackets. A text that is no path is a name as it stands. Letters count
without regard to case.
-/

namespace ContentClasses.Setting

/-- A character that the names of a path are made of. -/
def isNameChar (c : Char) : Bool :=
  c.isAlphanum || c = '_' || c = '-' || c = ' '

/-- The whole number of a list of digits with or without a minus sign, if it has at most 63 binary
digits. -/
def signed? : List Char → Option Int
  | '-' :: digits => (Numeral.digits? digits).bind fun n => Numeral.inRange? (-n)
  | digits => (Numeral.digits? digits).bind fun n => Numeral.inRange? n

/-- The index between brackets, without the closing one. -/
def index? : List Char → Option Step
  | '[' :: cs =>
    let isSpace := fun c => c = ' ' ∨ c = '\t'
    (signed? ((cs.dropWhile isSpace).reverse.dropWhile isSpace).reverse).map .index
  | _ => none

/-- A name with the indices behind it. -/
def nameAndIndices? (part : List Char) : Option (List Step) :=
  let name := part.takeWhile isNameChar
  if name.isEmpty then none
  else
    let pieces := (part.dropWhile isNameChar).splitOn ']'
    if pieces.getLast? = some [] then
      (pieces.dropLast.mapM index?).map (.name (String.ofList name) :: ·)
    else none

/-- The steps of a key. -/
def stepsOfKey (key : String) : List Step :=
  let key := lowercase key
  match (key.toList.splitOn '.').mapM nameAndIndices? with
  | some steps => steps.flatten
  | none => [.name key]

example : stepsOfKey "Namespace" = [.name "namespace"] := by decide

example : stepsOfKey "a.b[2]" = [.name "a", .name "b", .index 2] := by decide

example : stepsOfKey "a[ -1 ]" = [.name "a", .index (-1)] := by decide

example : stepsOfKey ".a" = [.name ".a"] := by decide

end ContentClasses.Setting
