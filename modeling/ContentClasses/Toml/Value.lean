import ContentClasses.Settings.Value
import ContentClasses.Toml.Moment

/-!
# Values of TOML

The values that a text can give, and the settings that they stand for. A moment stands for its text.
A table whose first name is the moment name stands for the moment that its first entry gives as a
string, whatever else it holds.
-/

namespace ContentClasses.Toml

/-- A value. The entries of a table come in the order in which they were made. -/
inductive Value where
  | bool (value : Bool)
  | integer (value : Int)
  | float (value : Binary64)
  | string (value : String)
  | moment (text : String)
  | list (items : List Value)
  | table (entries : List (String × Value))

namespace Value

/-- The first name of a table that stands for a moment. -/
def momentName : String := "$__toml_private_datetime"

/-- The moment that a value gives as a string. -/
def momentOf? : Value → Option Setting
  | string s => (moment? s.toList).map fun moment => .text (String.ofList moment)
  | _ => none

mutual

/-- The setting that a value stands for. -/
def toSetting? : Value → Option Setting
  | bool b => some (.bool b)
  | integer n => some (.integer n)
  | float x => some (.float x)
  | string s => some (.text s)
  | moment m => some (.text m)
  | list items => (settingsOfItems? items).map .list
  | table [] => some (.table [])
  | table ((name, value) :: entries) =>
    if name = momentName then momentOf? value
    else do
      let first ← toSetting? value
      let others ← settingsOfEntries? entries
      return .table ((name, first) :: others)

/-- The settings that the items of a list stand for. -/
def settingsOfItems? : List Value → Option (List Setting)
  | [] => some []
  | item :: items => do
    let first ← toSetting? item
    let others ← settingsOfItems? items
    return first :: others

/-- The settings that entries behind the first one of a table stand for. -/
def settingsOfEntries? : List (String × Value) → Option (List (String × Setting))
  | [] => some []
  | (name, value) :: entries => do
    let first ← toSetting? value
    let others ← settingsOfEntries? entries
    return (name, first) :: others

end

end Value

end ContentClasses.Toml
