import ContentClasses.Toml.Value

/-!
# Tables of TOML

The statements of a text fill a table. A table inside it comes into being in one of three ways: by
a header of its own, by a longer header, or by a key with dots; how it did decides what may be added
to it later. Nothing is ever given twice.
-/

namespace ContentClasses.Toml

/-- How a table came into being. -/
inductive Origin where
  /-- By a header of its own. -/
  | header
  /-- As a part of a longer header. -/
  | longerHeader
  /-- As a part of a key with dots. -/
  | dottedKey
deriving DecidableEq, Repr

/-- An entry of a table: a value, a table, or a list of tables of which the last is open. -/
inductive Entry where
  | value (value : Value)
  | table (origin : Origin) (entries : List (String × Entry))
  | tables (done : List (List (String × Entry))) (last : List (String × Entry))

/-- The entries of a table by name. -/
abbrev Entries := List (String × Entry)

namespace Entries

/-- The entries after a change of the table to which the path leads; tables that are missing on the
way are made. A key with dots does not lead into a table with a header. -/
def update (byKey : Bool) (change : Origin → Entries → Option Entries) :
    List String → Origin → Entries → Option Entries
  | [], origin, entries => change origin entries
  | name :: path, _, entries =>
    match entries.lookup name with
    | none => do
      let origin := if byKey then .dottedKey else .longerHeader
      let inner ← update byKey change path origin []
      return Files.assign name (.table origin inner) entries
    | some (.value _) => none
    | some (.table origin inner) =>
      if byKey && origin = .header then none
      else do
        let inner ← update byKey change path origin inner
        return Files.assign name (.table origin inner) entries
    | some (.tables done last) => do
      let last ← update byKey change path .header last
      return Files.assign name (.tables done last) entries

/-- Adds an entry under a name that is free. -/
def insert (name : String) (entry : Entry) (entries : Entries) : Option Entries :=
  match entries.lookup name with
  | none => some (entries ++ [(name, entry)])
  | some _ => none

/-- Adds a value under a key with dots: only to tables that came into being by such keys. -/
def insertAt (path : List String) (name : String) (value : Value) (entries : Entries) :
    Option Entries :=
  entries.update true
    (fun origin entries =>
      if path.isEmpty || origin = .dottedKey then entries.insert name (.value value) else none)
    path .header

/-- The entries without those of a name. -/
def without (name : String) (entries : Entries) : Entries :=
  entries.filter fun entry => entry.1 ≠ name

/-- Opens a table by its header. It may be there as a part of longer headers, and then comes to
stand behind the other entries. -/
def openTable (name : String) (entries : Entries) : Option Entries :=
  match entries.lookup name with
  | none => some (entries ++ [(name, .table .header [])])
  | some (.table .longerHeader inner) =>
    some (without name entries ++ [(name, .table .header inner)])
  | some _ => none

/-- Opens one more table of a list by its header. -/
def openNext (name : String) (entries : Entries) : Option Entries :=
  match entries.lookup name with
  | none => some (entries ++ [(name, .tables [] [])])
  | some (.tables done last) => some (Files.assign name (.tables (done ++ [last]) []) entries)
  | some _ => none

end Entries

mutual

/-- The value of an entry. -/
def Entry.toValue : Entry → Value
  | .value value => value
  | .table _ entries => .table (valuesOf entries)
  | .tables done last => .list (tablesOf done ++ [.table (valuesOf last)])

/-- The values of the entries of a table. -/
def valuesOf : List (String × Entry) → List (String × Value)
  | [] => []
  | (name, entry) :: entries => (name, entry.toValue) :: valuesOf entries

/-- The values of some tables. -/
def tablesOf : List (List (String × Entry)) → List Value
  | [] => []
  | entries :: tables => .table (valuesOf entries) :: tablesOf tables

end

/-- A statement of a text. -/
inductive Statement where
  /-- A value for the key `path.name` of the table that is open. -/
  | assign (path : List String) (name : String) (value : Value)
  /-- The header of the table `path.name`. -/
  | table (path : List String) (name : String)
  /-- The header of one more table of the list `path.name`. -/
  | nextTable (path : List String) (name : String)

/-- The table that a text has filled so far, and the path of the table that is open. -/
structure Document where
  entries : Entries
  current : List String

namespace Document

/-- The document of no statement. -/
def empty : Document where
  entries := []
  current := []

/-- Carries out a statement. -/
def run (document : Document) : Statement → Option Document
  | .assign path name value => do
    let entries ← document.entries.update false
      (fun _ entries => entries.insertAt path name value) document.current .header
    return { document with entries }
  | .table path name => do
    let entries ←
      document.entries.update false (fun _ entries => entries.openTable name) path .header
    return { entries, current := path ++ [name] }
  | .nextTable path name => do
    let entries ←
      document.entries.update false (fun _ entries => entries.openNext name) path .header
    return { entries, current := path ++ [name] }

/-- The settings that a document gives. It must not stand for a moment. -/
def settings? (document : Document) : Option Settings :=
  match (Value.table (valuesOf document.entries)).toSetting? with
  | some (.table settings) => some settings
  | _ => none

end Document

end ContentClasses.Toml
