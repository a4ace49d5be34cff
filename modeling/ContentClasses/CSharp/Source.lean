import ContentClasses.CSharp.Literal
import ContentClasses.Compilation
import ContentClasses.Text.Lines

/-!
# C# sources

The source of a class, of a class for typed links, and of the lookup from content types to classes.
A source is a list of lines. Codenames and ids stand in it as literals only.
-/

namespace ContentClasses.CSharp

/-- What the sources of a run share: the namespace of their classes and the dialect. -/
structure Context where
  namespaceName : String
  dialect : Dialect
deriving DecidableEq, Repr

/-- The extension of the files that hold sources. -/
def extension : String := "cs"

/-- The name of the class with the lookup. -/
def typeProviderName : String := "CustomTypeProvider"

/-- The first lines of every source. -/
def header : List String :=
  ["// <auto-generated>",
    "// This code was generated by a tool.",
    "//",
    "// Changes to this file may cause incorrect behavior and will be lost if",
    "// the code is regenerated.",
    "// </auto-generated>",
    ""]

/-- The namespace that declares the types of properties. -/
def abstractionsOf : Dialect → String
  | .delivery => "Kontent.Ai.Delivery.Abstractions"
  | .management => "Kontent.Ai.Management.Models.LanguageVariants.Elements"

/-- The line that makes the types of a namespace known. -/
def usingLine (name : String) : String :=
  "using " ++ name ++ ";"

/-- A line with a number of steps of indentation in front. -/
def indent (steps : Nat) (line : String) : String :=
  String.join (List.replicate steps "    ") ++ line

/-- Lines between braces, which stand at a number of steps of indentation. -/
def braced (steps : Nat) (lines : List String) : List String :=
  indent steps "\x7b" :: lines ++ [indent steps "\x7d"]

/-- The line that declares a constant of a class. -/
def constantLine (name value : String) : String :=
  indent 2 ("public const string " ++ name ++ " = " ++ literal value ++ ";")

/-- The line with an attribute of a property. -/
def attributeLine (name value : String) : String :=
  indent 2 ("[" ++ name ++ "(" ++ literal value ++ ")]")

/-- The attributes of a property: in management its codename and the ids of its element. -/
def attributeLines (dialect : Dialect) (p : Property) : List String :=
  match dialect with
  | .delivery => []
  | .management =>
    attributeLine "JsonProperty" p.codename ::
      (p.id?.map (attributeLine "KontentElementId")).toList ++
      (p.externalId?.map (attributeLine "KontentElementExternalId")).toList

/-- The line that declares a property. -/
def propertyLine (p : Property) : String :=
  indent 2 ("public " ++ p.typeName ++ " " ++ p.identifier.text ++ " \x7b get; set; \x7d")

/-- The lines of a property. -/
def propertyLines (dialect : Dialect) (p : Property) : List String :=
  attributeLines dialect p ++ [propertyLine p]

/-- The name of the constant for a codename. It is that of the property of this codename where the
class has one. -/
def constantName (model : ClassModel) (codename : String) : String :=
  match model.property? codename with
  | some p => p.constantName
  | none =>
    match Identifier.ofText? codename with
    | some identifier => identifier.text ++ "Codename"
    | none => "InvalidCodename"

/-- The lines of the constants of a class: its own codename and those of its properties. -/
def constantLines (model : ClassModel) : List String :=
  constantLine "Codename" model.sourceCodename ::
    model.constants.map fun codename => constantLine (constantName model codename) codename

/-- The lines of a class around those of its members. -/
def classLines (context : Context) (model : ClassModel) (members : List String) : List String :=
  header ++
    (["System", "System.Collections.Generic", abstractionsOf context.dialect] ++
        match context.dialect with
        | .delivery => []
        | .management => ["Newtonsoft.Json"]).map usingLine ++
    ["", "namespace " ++ context.namespaceName] ++
    braced 0 (indent 1 ("public partial class " ++ model.className.text) :: braced 1 members)

/-- The source of a class. -/
def classSource (context : Context) (model : ClassModel) : String :=
  Text.ofLines <| classLines context model <|
    constantLines model ++
      model.properties.flatMap fun p => "" :: propertyLines context.dialect p

/-- The source of a class for typed links: properties with a blank line between them. -/
def typedClassSource (context : Context) (model : ClassModel) : String :=
  Text.ofLines <| classLines context model <|
    [""].intercalate (model.properties.map (propertyLines context.dialect))

/-- The line of the lookup for one class. -/
def lookupLine (compiled : CompiledContentType) : String :=
  indent 3 ("\x7btypeof(" ++ compiled.model.className.text ++ "), " ++
    literal compiled.model.sourceCodename ++ "\x7d,")

/-- The lines of a method with one statement. -/
def methodLines (signature statement : String) : List String :=
  indent 2 signature :: braced 2 [indent 3 statement]

/-- The source of the lookup between content types and classes. -/
def typeProviderSource (context : Context) (compiled : List CompiledContentType) : String :=
  Text.ofLines <|
    header ++
      ["System", "System.Collections.Generic", "System.Linq",
        abstractionsOf context.dialect].map usingLine ++
      ["", "namespace " ++ context.namespaceName] ++
      braced 0
        (indent 1 ("public class " ++ typeProviderName ++ " : ITypeProvider") :: braced 1
          ([indent 2 ("private static readonly Dictionary<Type, string> _codenames = " ++
                "new Dictionary<Type, string>"),
              indent 2 "\x7b"] ++
            compiled.map lookupLine ++
            [indent 2 "\x7d;", ""] ++
            methodLines "public Type GetType(string contentType)"
              ("return _codenames.Keys.FirstOrDefault(type => " ++
                "GetCodename(type).Equals(contentType));") ++
            [""] ++
            methodLines "public string GetCodename(Type contentType)"
              ("return _codenames.TryGetValue(contentType, out var codename) ? " ++
                "codename : null;")))

end ContentClasses.CSharp
