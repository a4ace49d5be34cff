import ContentClasses.CSharp.Source
import ContentClasses.Config.Basic
import ContentClasses.Output
import ContentClasses.Schema.Source

/-!
# Generation

A run from the schema of a project to the files with its classes. When no content type gives a
class, that is reported and nothing is written.
-/

namespace ContentClasses

open Files (Workspace)

/-- A run that is to be made. -/
structure Generation where
  config : Config
  source : SchemaSource
  dryRun : Bool

/-- What a run did: the number of content types with a class, the paths of the files, and what was
reported. -/
structure Report where
  contentTypes : Nat
  paths : List Path
  diagnostics : List Diagnostic
deriving DecidableEq, Repr

namespace Generation

/-- The run that reads the schema directory of its configuration. -/
def ofConfig (config : Config) (dryRun : Bool) : Generation where
  config := config
  source := .directory config.schemaDir
  dryRun := dryRun

/-- What reports call the project: its id, or the schema directory when it has none. -/
def projectLabel (g : Generation) : String :=
  if Text.isBlankText g.config.projectId then g.config.schemaDir.text else g.config.projectId

/-- Where the files of a run go. -/
def output (g : Generation) : Output where
  directory := g.config.outputDir
  suffix := g.config.fileNameSuffix
  extension := CSharp.extension
  dryRun := g.dryRun

/-- Checks the configuration, reads the schema and compiles it. -/
def compile (g : Generation) (w : Workspace) : Reporting (List CompiledContentType) := do
  Reporting.ofExcept g.config.validate
  let options ← Reporting.ofExcept g.config.options
  let project ← Reporting.ofExcept (g.source.project w)
  let compiled ← project.compile options
  if compiled.isEmpty then Reporting.report (.noContentTypes g.projectLabel)
  return compiled

/-- The files with the classes of a content type. -/
def filesOf (g : Generation) (compiled : CompiledContentType) : List SourceFile :=
  let context : CSharp.Context := ⟨g.config.namespaceName, g.config.dialect⟩
  let className := compiled.model.className.text
  { name := g.output.modelFileName className
    content := CSharp.classSource context compiled.model } ::
  (compiled.typed?.map fun typed =>
    { name := g.output.typedFileName className
      content := CSharp.typedClassSource context typed : SourceFile }).toList

/-- The file with the lookup, where it is asked for. -/
def providerFiles (g : Generation) (compiled : List CompiledContentType) : List SourceFile :=
  if g.config.withTypeProvider then
    [{ name := g.output.supportFileName CSharp.typeProviderName
       content :=
         CSharp.typeProviderSource ⟨g.config.namespaceName, g.config.dialect⟩ compiled }]
  else []

/-- All files of a run: none when there is no class. -/
def files (g : Generation) (compiled : List CompiledContentType) : List SourceFile :=
  if compiled.isEmpty then [] else compiled.flatMap g.filesOf ++ g.providerFiles compiled

/-- The files of a run without writing them. -/
def render (g : Generation) (w : Workspace) : Reporting (List SourceFile) :=
  g.files <$> g.compile w

/-- Writes the files of a run, if there are any. -/
def emit (g : Generation) (compiled : List CompiledContentType) (w : Workspace) :
    Except Error (List Path) × Workspace :=
  let files := g.files compiled
  if files.isEmpty then (.ok [], w) else g.output.writeAll files w

/-- Makes the run and passes on what is reported as it goes. -/
def forward (g : Generation) (w : Workspace) : Reporting (List Path) × Workspace :=
  let compilation := g.compile w
  match compilation.result with
  | .error e => (⟨compilation.reported, .error e⟩, w)
  | .ok compiled =>
    let (paths, w) := g.emit compiled w
    (⟨compilation.reported, paths⟩, w)

/-- Makes the run and answers what it did. -/
def run (g : Generation) (w : Workspace) : Except Error Report × Workspace :=
  let compilation := g.compile w
  match compilation.result with
  | .error e => (.error e, w)
  | .ok compiled =>
    let (paths, w) := g.emit compiled w
    (paths.map fun paths =>
      { contentTypes := compiled.length, paths, diagnostics := compilation.reported }, w)

end Generation

end ContentClasses
