import ContentClasses.Config.Basic
import ContentClasses.Settings.Environment
import ContentClasses.Settings.File

/-!
# Loading configurations

A configuration is loaded from layers of settings: files in the working directory, a file of the
user, a file that is asked for, and the environment. A later layer counts more, key by key. The
values are converted after that, so that a value that is covered by a later one does no harm.
-/

namespace ContentClasses.Config

open Files (Workspace)
open Setting (Formats)

/-- The files in the working directory, all of which may be missing. -/
def defaultFiles : List Path :=
  [⟨"model-generator.toml"⟩, ⟨".model-generator.toml"⟩, ⟨"config/model-generator.toml"⟩]

/-- The value of a variable that is set to something. -/
def valueOf? (environment : Environment) (name : String) : Option String :=
  (environment.lookup name).filter (· ≠ "")

/-- The directory for the configuration files of the user. -/
def userDirectory? (environment : Environment) : Option Path :=
  match (valueOf? environment "XDG_CONFIG_HOME").filter fun text => (Path.mk text).isAbsolute with
  | some directory => some ⟨directory⟩
  | none => (valueOf? environment "HOME").map fun home => (Path.mk home).join ".config"

/-- The file of the user. -/
def userFile? (environment : Environment) : Option Path :=
  (userDirectory? environment).map fun directory =>
    (directory.join "model-generator").join "model-generator.toml"

/-- Every file that may hold a layer. -/
def layerFiles [Formats] (environment : Environment) (path? : Option Path) : List Path :=
  let asked := defaultFiles ++ (userFile? environment).toList ++ path?.toList
  asked ++ asked.flatMap fun file => (Settings.extended file).map (·.1)

/-- The layers of settings, from the lowest to the highest. -/
def layers [Formats] (w : Workspace) (environment : Environment) (path? : Option Path) :
    Except Setting.Failure (List Settings) := do
  let files ← defaultFiles.mapM (Settings.readOptional w)
  let user ←
    match (userFile? environment).filter fun file => (w.node? file).isSome with
    | some file => Settings.readOptional w file
    | none => pure []
  let asked ←
    match path? with
    | some path => Settings.readRequired w path
    | none => pure []
  return files ++ [user, asked, environment.settings]

/-- The value of a field: that of its setting, or `default` where it has none. -/
def fieldOf {α : Type} (settings : Settings) (name : String) (default : α)
    (convert? : Setting → Option α) : Except Setting.Failure α :=
  match settings.lookup name with
  | none => .ok default
  | some value =>
    match convert? value with
    | some a => .ok a
    | none => .error (.wrongType name)

/-- The configuration that settings give. -/
def ofSettings (settings : Settings) : Except Setting.Failure Config := do
  let d := omitted
  let path? := fun value => (Setting.toText? value).map Path.mk
  let projectId ← fieldOf settings "project_id" d.projectId Setting.toText?
  let namespaceName ← fieldOf settings "namespace" d.namespaceName Setting.toText?
  let outputDir ← fieldOf settings "output_dir" d.outputDir path?
  let schemaDir ← fieldOf settings "schema_dir" d.schemaDir path?
  let fileNameSuffix ← fieldOf settings "file_name_suffix" d.fileNameSuffix Setting.toText?
  let managementApi ← fieldOf settings "management_api" d.managementApi Setting.toBool?
  let extendedModels ← fieldOf settings "extended_models" d.extendedModels Setting.toBool?
  let structuredModel ← fieldOf settings "structured_model" d.structuredModel Setting.toTexts?
  let withTypeProvider ← fieldOf settings "with_type_provider" d.withTypeProvider Setting.toBool?
  return {
    projectId, namespaceName, outputDir, schemaDir, fileNameSuffix, managementApi
    extendedModels, structuredModel, withTypeProvider }

/-- The settings that remain when the layers are laid over each other. -/
def merged (layers : List Settings) : Settings :=
  (layers.foldl (fun below layer => Settings.layOver layer below) (Setting.table [])).entries

/-- Loads the configuration, with a file that is asked for over the others. -/
def load [Formats] (w : Workspace) (environment : Environment) (path? : Option Path) :
    Except Error Config :=
  ((layers w environment path?).bind fun layers => ofSettings (merged layers)).mapError .settings

end ContentClasses.Config
