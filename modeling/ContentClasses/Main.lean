import ContentClasses.CommandLine.Run

/-!
# The command

The outer layer of the command line. It takes the part of the file tree that a run can depend on
into a workspace, carries out the run on it, and writes what is new or changed back to the disk.
-/

namespace ContentClasses

open CommandLine (Arguments Ending)
open Files (Location Node Workspace)

namespace Main

/-- The path of a location on the disk. -/
def diskPath (location : Location) : String :=
  "/" ++ "/".intercalate location

/-- The entry of the disk at a location. -/
def diskEntry (location : Location) : IO.FS.DirEntry where
  root := "/"
  fileName := diskPath location

/-- A node of the disk with all that is below it. -/
partial def readAll (entry : IO.FS.DirEntry) : IO Node := do
  if ← entry.path.isDir then
    let children ← entry.path.readDir
    return .dir (← children.toList.mapM fun child => return (child.fileName, ← readAll child))
  else return .file (← IO.FS.readBinFile entry.path)

/-- The locations through which a path leads. -/
def locationsOf (w : Workspace) (path : Path) : List Location :=
  let follow := fun (location : Location) (step : Path.Step) =>
    match step with
    | .here => location
    | .up => location.dropLast
    | .name name => location ++ [name]
  let steps := (w.absolute path).steps
  (List.range (steps.length + 1)).map fun n => (steps.take n).foldl follow []

/-- Takes the node at a location into a workspace: a file, or a directory without its entries. -/
def take (w : Workspace) (location : Location) : IO Workspace := do
  let entry := diskEntry location
  if (w.root.get? location).isSome then return w
  else if ← entry.path.isDir then return w.put location .emptyDir
  else if ← entry.path.pathExists then
    return w.put location (.file (← IO.FS.readBinFile entry.path))
  else return w

/-- Takes the nodes at some paths and above them into a workspace. -/
def takePaths (w : Workspace) (paths : List Path) : IO Workspace :=
  paths.foldlM (fun w path => (locationsOf w path).foldlM take w) w

/-- Takes everything below a directory into a workspace. -/
def takeTree (w : Workspace) (directory : Path) : IO Workspace := do
  let w ← takePaths w [directory]
  match w.locate directory with
  | .error _ => return w
  | .ok location => return w.put location (← readAll (diskEntry location))

/-- The workspace with nothing but the working directory. -/
def start : IO Workspace := do
  let current := (Path.mk (← IO.currentDir).toString).parts.filter (· ≠ "")
  return { root := Node.emptyDir.put current .emptyDir, current }

/-- The variables of the process. -/
def readEnvironment : IO Environment := do
  return .ofBlock (← IO.FS.readBinFile "/proc/self/environ")

/-- Writes a node that is new or changed to the disk. -/
def write (change : Location × Node) : IO Unit :=
  match change with
  | (location, .dir _) => IO.FS.createDirAll (diskPath location)
  | (location, .file content) => IO.FS.writeBinFile (diskPath location) content

/-- Takes what the run of a configuration can depend on into a workspace: the schema, and the files
that would be written over. -/
def prepare (a : Arguments) (config : Config) (w : Workspace) : IO Workspace := do
  let w ← takePaths w [config.schemaDir]
  let w ← takeTree w (config.schemaDir.join SchemaSource.typesName)
  let w ← takeTree w (config.schemaDir.join SchemaSource.snippetsName)
  let (ending, _) := CommandLine.generate { a with dryRun := true } config w
  takePaths w (config.outputDir :: ending.paths)

/-- Carries out the command line that has been read. -/
def execute (a : Arguments) : IO Ending := do
  let environment ← readEnvironment
  let w ← takePaths (← start) (Config.layerFiles environment (a.config?.map Path.mk))
  match CommandLine.configOf a environment w with
  | .error e => return .notLoaded e
  | .ok config =>
    let before ← prepare a config w
    let (ending, after) := CommandLine.generate a config before
    (Node.changes before.root after.root).forM write
    return ending

end Main

end ContentClasses

open ContentClasses in
/-- Runs the command and answers its exit code. -/
def main (arguments : List String) : IO UInt32 := do
  let ending ←
    match CommandLine.Arguments.ofList arguments with
    | .error stop => pure (.stopped stop)
    | .ok a => Main.execute a
  ending.outputLines.forM IO.println
  ending.errorLines.forM IO.eprintln
  return UInt32.ofNat ending.exitCode
