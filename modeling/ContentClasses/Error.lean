import ContentClasses.Files.Workspace
import ContentClasses.Json.Record
import ContentClasses.Schema.Basic
import ContentClasses.Settings.Value

/-!
# Errors

Every cause for which a generation or one of its parts fails, and the wording of each.
-/

namespace ContentClasses

/-- Why an operation failed. -/
inductive Error where
  /-- No identifier can be made from a text. -/
  | invalidIdentifier (text : String)
  /-- There is no property type for a kind of element. -/
  | unsupportedKind (kind : ElementKind)
  /-- A class already has a property of that codename. -/
  | duplicateProperty (codename className : String)
  /-- A class already has a constant for that codename. -/
  | duplicateConstant (codename className : String)
  /-- No snippet has that codename. -/
  | missingSnippet (codename : String)
  /-- An element allows a content type that is not there. -/
  | allowedTypeNotFound (reference : Reference) (element : String)
  /-- Typed links were asked for while they are turned off. -/
  | typedLinksDisabled
  /-- Typed links were asked for of an element that links nothing. -/
  | notItemReference (element : String) (kind : ElementKind)
  /-- Typed links were asked for without any content type. -/
  | noContentTypesGiven
  /-- No structured kind has that name. -/
  | unknownStructuredKind (name : String)
  /-- The namespace of the classes is blank. -/
  | blankNamespace
  /-- The namespace of the classes is not made of identifiers and dots. -/
  | malformedNamespace (name : String)
  /-- The schema directory is not there. -/
  | missingSchemaDirectory (directory : Path)
  /-- A file could not be read or written. -/
  | file (failure : Files.Failure)
  /-- A document is no schema. -/
  | document (failure : Json.Failure)
  /-- The settings could not be loaded. -/
  | settings (failure : Setting.Failure)
deriving DecidableEq, Repr

/-- An error in words. -/
def Error.message : Error → String
  | invalidIdentifier text => "Can't create a valid identifier from '" ++ text ++ "'"
  | unsupportedKind kind => "Unsupported content element type: " ++ kind.tag
  | duplicateProperty codename className =>
    "Property '" ++ codename ++ "' is already present in class '" ++ className ++ "'"
  | duplicateConstant codename className =>
    "Property codename constant '" ++ codename ++ "' is already present in class '" ++
      className ++ "'"
  | missingSnippet codename => "Snippet '" ++ codename ++ "' was not found"
  | allowedTypeNotFound reference element =>
    "Allowed content type " ++ reference.describe ++ " of element '" ++ element ++
      "' was not found"
  | typedLinksDisabled => "Unsupported operation: typed link resolution is disabled"
  | notItemReference element kind =>
    "Invalid argument: element '" ++ element ++ "' of type '" ++ kind.tag ++
      "' does not link content items"
  | noContentTypesGiven =>
    "Invalid argument: typed link resolution needs the content types of the project"
  | unknownStructuredKind name =>
    "Invalid argument: unknown structured model flag '" ++ name ++ "'"
  | blankNamespace => "Invalid argument: namespace must not be empty"
  | malformedNamespace name =>
    "Invalid argument: namespace '" ++ name ++ "' is not a valid dotted identifier"
  | missingSchemaDirectory directory =>
    "Invalid argument: schema directory '" ++ directory.text ++ "' does not exist"
  | file failure => "IO error: " ++ failure.message
  | document failure => "JSON error: " ++ failure.message
  | settings failure => "Configuration error: " ++ failure.message

end ContentClasses
