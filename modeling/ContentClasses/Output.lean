import ContentClasses.Error

/-!
# Output

The files of a run: what they are called and how they are written. What was written before a
failure stays.
-/

namespace ContentClasses

open Files (Workspace)

/-- A file that is to be written. -/
structure SourceFile where
  name : String
  content : String
deriving DecidableEq, Repr

/-- Where and under which names files are written, if they are written at all. -/
structure Output where
  directory : Path
  suffix : String
  extension : String
  dryRun : Bool
deriving DecidableEq, Repr

namespace Output

/-- The name of a file: its parts with a dot between each two. A suffix that is empty is no
part. -/
def fileName (output : Output) (stem : List String) : String :=
  let suffix := if output.suffix = "" then [] else [output.suffix]
  ".".intercalate (stem ++ suffix ++ [output.extension])

/-- The name of the file with the class of a content type. -/
def modelFileName (output : Output) (className : String) : String :=
  output.fileName [className]

/-- The name of the file with the class for typed links. -/
def typedFileName (output : Output) (className : String) : String :=
  output.fileName [className, "Typed"]

/-- The name of the file with any other class. -/
def supportFileName (output : Output) (className : String) : String :=
  className ++ "." ++ output.extension

/-- The path of a file. -/
def pathOf (output : Output) (file : SourceFile) : Path :=
  output.directory.join file.name

/-- Writes the files one after another, up to the first that cannot be written. -/
def writeFiles (output : Output) : List SourceFile → Workspace → Except Error Unit × Workspace
  | [], w => (.ok (), w)
  | file :: files, w =>
    match w.write (output.pathOf file) file.content.toUTF8 with
    | (.ok _, w) => writeFiles output files w
    | (.error failure, w) => (.error (.file failure), w)

/-- Makes the directory and writes the files, and answers their paths. A dry run only answers. -/
def writeAll (output : Output) (files : List SourceFile) (w : Workspace) :
    Except Error (List Path) × Workspace :=
  let paths := files.map output.pathOf
  if output.dryRun then (.ok paths, w)
  else
    match w.makeDirs output.directory with
    | (.error failure, w) => (.error (.file failure), w)
    | (.ok _, w) =>
      let (result, w) := output.writeFiles files w
      (result.map fun _ => paths, w)

end Output

end ContentClasses
