import ContentClasses.Files.Path
import ContentClasses.Files.Tree

/-!
# Workspaces

A file tree with a working directory. Paths are looked up step by step; directories and files are
made and written by functions from the workspace to the next one, and what was done before a
failure stays done.
-/

namespace ContentClasses.Files

/-- Why a file operation failed. -/
inductive Failure where
  | notFound (path : Path)
  | notDirectory (path : Path)
  | isDirectory (path : Path)
  | unusablePath (path : Path)
  | notText (path : Path)
deriving DecidableEq, Repr

/-- A failure in words. -/
def Failure.message : Failure → String
  | notFound path => "'" ++ path.text ++ "' was not found"
  | notDirectory path => "'" ++ path.text ++ "' is not below a directory"
  | isDirectory path => "'" ++ path.text ++ "' is a directory"
  | unusablePath path => "'" ++ path.text ++ "' is no usable path"
  | notText path => "'" ++ path.text ++ "' does not hold UTF-8 text"

/-- A file tree and the location of its working directory. -/
structure Workspace where
  root : Node
  current : Location

/-- What an operation answers, with the workspace after it. -/
abbrev Outcome (α : Type) := Except Failure α × Workspace

namespace Workspace

/-- The greatest length of a name in bytes. -/
def maxNameBytes : Nat := 255

/-- The greatest length of a path in bytes. -/
def maxPathBytes : Nat := 4095

/-- A name that an entry of a directory can have. -/
def isUsableName (name : String) : Bool :=
  name.utf8ByteSize ≤ maxNameBytes

/-- A path that can be looked up at all. -/
def isUsablePath (path : Path) : Bool :=
  path.text ≠ "" && path.text.utf8ByteSize ≤ maxPathBytes && !path.text.toList.contains '\x00'

/-- The location at which the lookup of a path starts. -/
def start (w : Workspace) (path : Path) : Location :=
  if path.isAbsolute then [] else w.current

/-- The location that the steps lead to from `location`. -/
def follow (w : Workspace) (path : Path) (location : Location) :
    List Path.Step → Except Failure Location
  | [] => .ok location
  | step :: steps =>
    match w.root.get? location with
    | some (.dir entries) =>
      match step with
      | .here => follow w path location steps
      | .up => follow w path location.dropLast steps
      | .name name =>
        if !isUsableName name then .error (.unusablePath path)
        else if (entries.lookup name).isSome then follow w path (location ++ [name]) steps
        else .error (.notFound path)
    | some (.file _) => .error (.notDirectory path)
    | none => .error (.notFound path)

/-- The location of the node that a path leads to. -/
def locate (w : Workspace) (path : Path) : Except Failure Location :=
  if isUsablePath path then w.follow path (w.start path) path.steps
  else .error (.unusablePath path)

/-- The node that a path leads to. -/
def node? (w : Workspace) (path : Path) : Option Node :=
  match w.locate path with
  | .ok location => w.root.get? location
  | .error _ => none

/-- The path leads to a directory. -/
def isDir (w : Workspace) (path : Path) : Bool :=
  (w.node? path).any Node.isDir

/-- The path leads to a file. -/
def isFile (w : Workspace) (path : Path) : Bool :=
  (w.node? path).any (!·.isDir)

/-- The bytes of the file that a path leads to. -/
def read (w : Workspace) (path : Path) : Except Failure ByteArray := do
  match w.root.get? (← w.locate path) with
  | some (.file content) => return content
  | some (.dir _) => throw (.isDirectory path)
  | none => throw (.notFound path)

/-- The path seen from the root. -/
def absolute (w : Workspace) (path : Path) : Path :=
  (Path.mk ("/" ++ "/".intercalate w.current)).join path.text

/-- The workspace with another node at a location. -/
def put (w : Workspace) (location : Location) (node : Node) : Workspace :=
  { w with root := w.root.put location node }

/-- Follows the steps and makes the directories that are missing on the way. -/
def makeSteps (w : Workspace) (path : Path) (location : Location) :
    List Path.Step → Outcome Location
  | [] => (.ok location, w)
  | step :: steps =>
    match w.root.get? location with
    | some (.dir entries) =>
      match step with
      | .here => makeSteps w path location steps
      | .up => makeSteps w path location.dropLast steps
      | .name name =>
        let next := location ++ [name]
        if !isUsableName name then (.error (.unusablePath path), w)
        else if (entries.lookup name).isSome then makeSteps w path next steps
        else makeSteps (w.put next .emptyDir) path next steps
    | some (.file _) => (.error (.notDirectory path), w)
    | none => (.error (.notFound path), w)

/-- The steps of a path whose directories are made before that of the path itself. A directory is
not made under the name dot, so a path that ends in one leads to a directory that is there. -/
def stepsToMake (path : Path) : List Path.Step :=
  if path.endsInDot then
    (path.steps.reverse.dropWhile (· == .here)).reverse.dropLast
  else path.steps

/-- Makes the directory of a path and those above it, as far as they are missing. The empty path
asks for nothing. -/
def makeDirs (w : Workspace) (path : Path) : Outcome Unit :=
  if path.text = "" then (.ok (), w)
  else if !isUsablePath path then (.error (.unusablePath path), w)
  else
    match w.makeSteps path (w.start path) (stepsToMake path) with
    | (.error failure, w) => (.error failure, w)
    | (.ok _, w) => (if w.isDir path then .ok () else .error (.notDirectory path), w)

/-- Writes a file in a directory that is there. What the file held before is gone. -/
def write (w : Workspace) (path : Path) (content : ByteArray) : Outcome Unit :=
  if !isUsablePath path then (.error (.unusablePath path), w)
  else
    match path.steps.getLast? with
    | some (.name name) =>
      match w.follow path (w.start path) path.steps.dropLast with
      | .error failure => (.error failure, w)
      | .ok location =>
        match w.root.get? location with
        | some (.dir entries) =>
          if !isUsableName name then (.error (.unusablePath path), w)
          else if (entries.lookup name).any Node.isDir then (.error (.isDirectory path), w)
          else (.ok (), w.put (location ++ [name]) (.file content))
        | some (.file _) => (.error (.notDirectory path), w)
        | none => (.error (.notFound path), w)
    | _ => (.error (.isDirectory path), w)

end Workspace

end ContentClasses.Files
