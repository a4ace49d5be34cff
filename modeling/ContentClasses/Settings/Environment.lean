import ContentClasses.Decimal.Numeral
import ContentClasses.Settings.Value

/-!
# Settings from the environment

Variables whose name starts with `MODELGEN__`, in any case, are settings. Two underscores behind
that separate a key from a key inside its value.
-/

namespace ContentClasses

/-- The variables of a process. -/
abbrev Environment := List (String × String)

namespace Environment

/-- The variable that a text `name=value` assigns. -/
def variableOf? (assignment : String) : Option (String × String) :=
  let name := assignment.toList.takeWhile (· ≠ '=')
  match assignment.toList.drop name.length with
  | [] => none
  | _ :: value => some (String.ofList name, String.ofList value)

/-- The environment that is written as a block: the assignments of all variables, each ended by a
zero byte. Variables that are not UTF-8 text are left out. -/
def ofBlock (block : ByteArray) : Environment :=
  (block.toList.splitOn 0).filterMap fun assignment =>
    (String.fromUTF8? ⟨assignment.toArray⟩).bind variableOf?

/-- What the name of a variable that is a setting starts with. -/
def keyStart : String := "modelgen__"

/-- The key of the only setting whose text is a list, with commas between the items. -/
def listKey : String := "structured_model"

/-- The characters with a dot in place of every two underscores. -/
def dotted : List Char → List Char
  | '_' :: '_' :: rest => '.' :: dotted rest
  | c :: rest => c :: dotted rest
  | [] => []

/-- The key that a variable sets. -/
def key? (name : String) : Option String :=
  let name := (Setting.lowercase name).toList
  if keyStart.toList.isPrefixOf name then
    some (String.ofList (dotted (name.drop keyStart.length)))
  else none

/-- The value of a setting in the environment: a truth value, a whole number, a number, the items
of a list, or a text, the first that the text can be. -/
def settingOf (key text : String) : Setting :=
  let word := Setting.lowercase text
  if word = "true" then .bool true
  else if word = "false" then .bool false
  else
    match Numeral.integer? text, Numeral.float? text with
    | some n, _ => .integer n
    | none, some x => .float x
    | none, none =>
      if key = listKey then .list ((Text.split ',' text).map .text) else .text text

/-- The settings of an environment. -/
def settings (environment : Environment) : Settings :=
  environment.filterMap fun (name, text) =>
    (key? name).map fun key => (key, settingOf key text)

end Environment

end ContentClasses
