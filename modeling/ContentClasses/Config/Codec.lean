import ContentClasses.Config.Basic

/-!
# Configurations in JSON

Every field may be left out, and then has a value of its own for that, but none may be null.
-/

namespace ContentClasses

open Json (Failure Field Record)

/-- Reads a path. -/
def Path.ofJson (value : Json) : Except Failure Path :=
  Path.mk <$> Json.asText value

/-- A path is written as its text. -/
def Path.toJson (path : Path) : Json :=
  .ofString path.text

namespace Config

/-- The fields of a configuration. -/
def fields : List Field :=
  [{ name := "project_id" }, { name := "namespace" }, { name := "output_dir" },
    { name := "schema_dir" }, { name := "file_name_suffix" }, { name := "management_api" },
    { name := "extended_models" }, { name := "structured_model" },
    { name := "with_type_provider" }]

/-- Reads a configuration. -/
def ofJson (value : Json) : Except Failure Config := do
  let record ← value.toRecord fields
  let d := omitted
  let projectId ← record.withDefault "project_id" d.projectId Json.asText
  let namespaceName ← record.withDefault "namespace" d.namespaceName Json.asText
  let outputDir ← record.withDefault "output_dir" d.outputDir Path.ofJson
  let schemaDir ← record.withDefault "schema_dir" d.schemaDir Path.ofJson
  let fileNameSuffix ← record.withDefault "file_name_suffix" d.fileNameSuffix Json.asText
  let managementApi ← record.withDefault "management_api" d.managementApi Json.asBool
  let extendedModels ← record.withDefault "extended_models" d.extendedModels Json.asBool
  let structuredModel ←
    record.withDefault "structured_model" d.structuredModel (Json.asList Json.asText)
  let withTypeProvider ← record.withDefault "with_type_provider" d.withTypeProvider Json.asBool
  return {
    projectId, namespaceName, outputDir, schemaDir, fileNameSuffix, managementApi
    extendedModels, structuredModel, withTypeProvider }

/-- A configuration is written with all its fields. -/
def toJson (config : Config) : Json :=
  .ofMembers
    [("project_id", .ofString config.projectId),
      ("namespace", .ofString config.namespaceName),
      ("output_dir", config.outputDir.toJson),
      ("schema_dir", config.schemaDir.toJson),
      ("file_name_suffix", .ofString config.fileNameSuffix),
      ("management_api", .bool config.managementApi),
      ("extended_models", .bool config.extendedModels),
      ("structured_model", .ofStrings config.structuredModel),
      ("with_type_provider", .bool config.withTypeProvider)]

end Config

end ContentClasses
