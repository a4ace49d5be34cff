import ContentClasses.Error
import ContentClasses.Json.Reader
import ContentClasses.Schema.Codec

/-!
# Sources of schemas

The schema of a project is given, or read from the documents in a directory: content types below
`types` and snippets below `snippets`. A document holds one of them or a list.
-/

namespace ContentClasses

open Files (Location Workspace)

/-- Where the schema of a project comes from. -/
inductive SchemaSource where
  | given (project : Project)
  | directory (root : Path)

namespace SchemaSource

/-- The directory of content types below that of a schema. -/
def typesName : String := "types"

/-- The directory of snippets below that of a schema. -/
def snippetsName : String := "snippets"

/-- The extension of a document. -/
def documentExtension : String := "json"

section Documents

variable {α : Type} (read : Nat → Json → Except Json.Failure α)

/-- The values in a document: those of a list, or a single one. A document that is neither may
still be a single value that cannot be held. -/
def ofDocument (document : Json) : Except Json.Failure (List α) :=
  let one := (read Json.maxDepth document).map ([·])
  if document.isHeld Json.maxDepth then
    match Json.asList (read (Json.maxDepth - 1)) document with
    | .ok several => .ok several
    | .error _ => one
  else one

/-- The values in a file. -/
def ofFile (directory : Path) (file : Location × ByteArray) : Except Error (List α) :=
  let path := directory.join ("/".intercalate file.1)
  match String.fromUTF8? file.2 with
  | none => .error (.file (.notText path))
  | some text =>
    match Json.ofText? text with
    | none => .error (.document .malformed)
    | some document => (ofDocument read document).mapError .document

/-- The file at a location is a document. -/
def isDocument (location : Location) : Bool :=
  (location.getLast?.bind Path.extension?) == some documentExtension

/-- The values in the documents below a directory, in the order of the files. A directory that is
missing holds none. -/
def ofDirectory (w : Workspace) (directory : Path) : Except Error (List α) :=
  match w.node? directory with
  | some (.dir entries) => do
    let documents := (Files.Node.dir entries).files.filter fun (location, _) => isDocument location
    let values ← documents.mapM (ofFile read directory)
    return values.flatten
  | _ => .ok []

end Documents

/-- The content types of a source. The directory of a schema must be there. -/
def contentTypes (source : SchemaSource) (w : Workspace) : Except Error (List ContentType) :=
  match source with
  | given project => .ok project.contentTypes
  | directory root =>
    if w.isDir root then ofDirectory ContentType.ofJson w (root.join typesName)
    else .error (.missingSchemaDirectory root)

/-- The snippets of a source. -/
def snippets (source : SchemaSource) (w : Workspace) : Except Error (List Snippet) :=
  match source with
  | given project => .ok project.snippets
  | directory root => ofDirectory Snippet.ofJson w (root.join snippetsName)

/-- The whole schema of a source. -/
def project (source : SchemaSource) (w : Workspace) : Except Error Project := do
  let contentTypes ← source.contentTypes w
  let snippets ← source.snippets w
  return { contentTypes, snippets }

end SchemaSource

end ContentClasses
