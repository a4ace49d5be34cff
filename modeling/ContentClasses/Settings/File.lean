import ContentClasses.Files.Workspace
import ContentClasses.Json.Reader
import ContentClasses.Settings.Key
import ContentClasses.Toml.Reader

/-!
# Settings from files

A settings file is written in one of several languages, which its extension tells. It is asked for
by its whole name, or by its name without the extension. TOML and JSON are read here; the readers of
the other languages are given.
-/

namespace ContentClasses

namespace Setting

/-- The setting for a number: whole if it is written so and has at most 63 binary digits. -/
def ofNumber (n : Json.Number) : Setting :=
  match n.integer?.bind Numeral.inRange? with
  | some i => integer i
  | none => float n.float

mutual

/-- The setting that a JSON value gives. Of several members of one name the last counts. -/
def ofJson : Json → Setting
  | .null => null
  | .bool b => bool b
  | .number n => ofNumber n
  | .string s => text (s.getD "")
  | .array items => list (ofItems items)
  | .object members => table (ofMembers [] members)

/-- The settings of the items of an array. -/
def ofItems : List Json → List Setting
  | [] => []
  | item :: items => ofJson item :: ofItems items

/-- The settings of the members of an object, over those of the members before them. -/
def ofMembers (before : List (String × Setting)) :
    List (Json.Text × Json) → List (String × Setting)
  | [] => before
  | (name, value) :: members =>
    ofMembers (Files.assign (name.getD "") (ofJson value) before) members

end

/-- The languages of settings files. -/
inductive Format where
  | toml
  | json
  | yaml
  | ini
  | ron
  | json5
deriving DecidableEq, Repr

namespace Format

/-- All formats. -/
def all : List Format :=
  [toml, json, yaml, ini, ron, json5]

/-- The extensions of the files in a format, in the order in which they are tried. -/
def extensions : Format → List String
  | toml => ["toml"]
  | json => ["json"]
  | yaml => ["yaml", "yml"]
  | ini => ["ini"]
  | ron => ["ron"]
  | json5 => ["json5"]

end Format

/-- What the formats are to a program that loads settings. The table of formats is a hash table, so
that the formats come in some order and nothing is known of it. The readers are those of the
languages that have no reader here: each tells the settings that a text gives. -/
class Formats where
  order : List Format
  complete : order.Perm Format.all
  yaml? : String → Option Settings
  ini? : String → Option Settings
  ron? : String → Option Settings
  json5? : String → Option Settings

/-- The formats with no readers but those for TOML and JSON: no text in another format gives
settings. -/
instance Formats.builtIn : Formats where
  order := Format.all
  complete := .refl _
  yaml? _ := none
  ini? _ := none
  ron? _ := none
  json5? _ := none

/-- The settings that a text in a format gives. -/
def Format.settings? [Formats] (format : Format) (text : String) : Option Settings :=
  match format with
  | toml => Toml.settings? text
  | json =>
    match Json.ofText? text with
    | some (.object members) =>
      if (Json.object members).isHeld Json.maxDepth then some (ofMembers [] members) else none
    | _ => none
  | yaml => Formats.yaml? text
  | ini => Formats.ini? text
  | ron => Formats.ron? text
  | json5 => Formats.json5? text

end Setting

namespace Settings

open Files (Workspace)
open Setting (Formats)

/-- The files that a path without an extension may ask for, with their formats. -/
def extended [Formats] (file : Path) : List (Path × Setting.Format) :=
  Formats.order.flatMap fun format =>
    format.extensions.filterMap fun extension =>
      (file.addExtension? extension).map (·, format)

/-- The file that is asked for by a path, and its format. A file of that very name must have the
extension of a format. -/
def find [Formats] (w : Workspace) (path : Path) :
    Except Setting.Failure (Path × Setting.Format) :=
  let file := w.absolute path
  if w.isFile file then
    let extension := (file.fileName?.bind Path.extension?).getD ""
    match Formats.order.find? (·.extensions.contains extension) with
    | some format => .ok (file, format)
    | none => .error (.unknownFormat path)
  else
    match (extended file).find? (w.isFile ·.1) with
    | some found => .ok found
    | none => .error (.missingFile path)

/-- The text of a file that has been found. -/
def textOf (w : Workspace) (file : Path) : Except Setting.Failure String :=
  match (w.read file).toOption.bind String.fromUTF8? with
  | some text => .ok text
  | none => .error (.unreadable file)

/-- The settings that a text gives. -/
def ofText [Formats] (file : Path) (format : Setting.Format) (text : String) :
    Except Setting.Failure Settings :=
  match format.settings? text with
  | some settings => .ok settings
  | none => .error (.malformed file)

/-- The settings of a file that must be there. -/
def readRequired [Formats] (w : Workspace) (path : Path) :
    Except Setting.Failure Settings := do
  let (file, format) ← find w path
  ofText file format (← textOf w file)

/-- The settings of a file that may be missing. A file that holds no text counts as missing. -/
def readOptional [Formats] (w : Workspace) (path : Path) : Except Setting.Failure Settings :=
  match find w path with
  | .error _ => .ok []
  | .ok (file, format) =>
    match textOf w file with
    | .error _ => .ok []
    | .ok text => ofText file format text

/-- Lays the settings of one source over a value, key by key. -/
def layOver (settings : Settings) (below : Setting) : Setting :=
  settings.foldl
    (fun below (key, value) => below.overlayAt value (Setting.stepsOfKey key)) below

end Settings

end ContentClasses
