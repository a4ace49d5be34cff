import ContentClasses.Config.Basic
import ContentClasses.Toml.Writer

/-!
# Saving configurations

A configuration is saved as a TOML document with one line for every field.
-/

namespace ContentClasses.Config

/-- The document of a configuration. -/
def document (config : Config) : String :=
  String.join
    [Toml.line "project_id" (Toml.writeText config.projectId),
      Toml.line "namespace" (Toml.writeText config.namespaceName),
      Toml.line "output_dir" (Toml.writeText config.outputDir.text),
      Toml.line "schema_dir" (Toml.writeText config.schemaDir.text),
      Toml.line "file_name_suffix" (Toml.writeText config.fileNameSuffix),
      Toml.line "management_api" (Toml.writeBool config.managementApi),
      Toml.line "extended_models" (Toml.writeBool config.extendedModels),
      Toml.line "structured_model" (Toml.writeTexts config.structuredModel),
      Toml.line "with_type_provider" (Toml.writeBool config.withTypeProvider)]

/-- Saves a configuration in a file. -/
def save (config : Config) (w : Files.Workspace) (path : Path) :
    Except Error Unit × Files.Workspace :=
  let (result, w) := w.write path config.document.toUTF8
  (result.mapError .file, w)

end ContentClasses.Config
