import ContentClasses.Identifier
import ContentClasses.PropertyType

/-!
# Configurations

What a generation can be told, and the check that it is told something sensible.
-/

namespace ContentClasses

namespace Config

/-- The namespace where none is named. -/
def defaultNamespace : String := "ContentModels"

/-- The directory for sources where none is named. -/
def defaultOutputDir : Path := ⟨"."⟩

/-- The directory of the schema where none is named. -/
def defaultSchemaDir : Path := ⟨"schema"⟩

/-- What stands before the extension of a file name where nothing else is named. -/
def defaultFileNameSuffix : String := "Generated"

end Config

/-- The configuration of a generation. Its defaults make the configuration that holds where nothing
is said at all. -/
structure Config where
  /-- The project, as reports name it. -/
  projectId : String := ""
  /-- The namespace of the classes. -/
  namespaceName : String := Config.defaultNamespace
  /-- Where sources are written. -/
  outputDir : Path := Config.defaultOutputDir
  /-- Where the schema is read from. -/
  schemaDir : Path := Config.defaultSchemaDir
  /-- What stands before the extension of a file name. -/
  fileNameSuffix : String := Config.defaultFileNameSuffix
  /-- Classes are for managing content, not for reading it. -/
  managementApi : Bool := false
  /-- Links to one content type are typed. -/
  extendedModels : Bool := false
  /-- The kinds of elements with a structured type, by name. -/
  structuredModel : List String := []
  /-- The lookup from content types to classes is generated as well. -/
  withTypeProvider : Bool := false
deriving DecidableEq, Repr

namespace Config

/-- What a reader puts for each field that a document or the settings leave out. Every field has its
own value for this, whatever the other fields are. -/
def omitted : Config where
  projectId := ""
  namespaceName := defaultNamespace
  outputDir := defaultOutputDir
  schemaDir := defaultSchemaDir
  fileNameSuffix := defaultFileNameSuffix
  managementApi := false
  extendedModels := false
  structuredModel := []
  withTypeProvider := false

/-- What is put for the fields that are left out is what they are where nothing is said at all. -/
theorem omitted_eq : omitted = {} :=
  rfl

/-- Two configurations say the same. Their paths may differ in how they are written. -/
def same (a b : Config) : Bool :=
  a.projectId == b.projectId && a.namespaceName == b.namespaceName &&
    a.outputDir.same b.outputDir && a.schemaDir.same b.schemaDir &&
    a.fileNameSuffix == b.fileNameSuffix && a.managementApi == b.managementApi &&
    a.extendedModels == b.extendedModels && a.structuredModel == b.structuredModel &&
    a.withTypeProvider == b.withTypeProvider

/-- The dialect of the classes. -/
def dialect (config : Config) : Dialect :=
  if config.managementApi then .management else .delivery

/-- What is to be generated. -/
def options (config : Config) : Except Error Options := do
  let structured ← StructuredKinds.ofNames config.structuredModel
  return { dialect := config.dialect, structured, typedLinks := config.extendedModels }

/-- A namespace is made of identifiers with a dot between each two. -/
def isNamespace (name : String) : Bool :=
  (Text.split '.' name).all Identifier.isValid

/-- Checks what the types of the fields leave open: the namespace, and after it the names of the
structured kinds. -/
def validate (config : Config) : Except Error Unit := do
  if Text.isBlankText config.namespaceName then throw .blankNamespace
  if !isNamespace config.namespaceName then throw (.malformedNamespace config.namespaceName)
  let _ ← StructuredKinds.ofNames config.structuredModel
  return

end Config

end ContentClasses
