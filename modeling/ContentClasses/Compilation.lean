import ContentClasses.Reporting
import ContentClasses.Schema.Expansion
import ContentClasses.TypedLink

/-!
# Compilation

Every content type of a project gives a class and, where links are typed and some element gives a
typed link, a second class for these. Content types and elements that cannot be named or typed, or
whose codename is taken, are left out and reported; a snippet or a content type that is referred to
and missing ends the compilation.
-/

namespace ContentClasses

/-- What a content type is compiled to. -/
structure CompiledContentType where
  model : ClassModel
  typed? : Option ClassModel
deriving DecidableEq, Repr

/-- What the name of the class for typed links ends in. -/
def typedEnding : String := "Typed"

/-- The two classes of a content type while its elements are added to them. -/
structure Classes where
  base : ClassModel
  typed : ClassModel
deriving DecidableEq, Repr

namespace Classes

/-- Both classes without members. -/
def ofClassName (codename : String) (className : Identifier) : Classes where
  base := { sourceCodename := codename, className }
  typed := { sourceCodename := codename, className := className.append typedEnding }

/-- The compiled content type: the class for typed links is left out when it is empty. -/
def toCompiled (classes : Classes) : CompiledContentType where
  model := classes.base
  typed? := if classes.typed.isEmpty then none else some classes.typed

end Classes

namespace ClassModel

/-- The answer to a property that a class does not take: a codename that is taken is reported
against the class of that name, and any other error stays one. -/
def refuse (model : ClassModel) (codename className : String) :
    Error → Reporting (ClassModel × Bool)
  | .duplicateProperty .. | .duplicateConstant .. => do
    Reporting.report (.duplicateElement className codename)
    return (model, false)
  | e => Reporting.ofExcept (.error e)

/-- Adds the constant for a codename, and answers whether it was free. -/
def offerConstant (model : ClassModel) (codename className : String) :
    Reporting (ClassModel × Bool) :=
  match model.addConstant codename with
  | .error e => model.refuse codename className e
  | .ok model => return (model, true)

/-- Adds a property and, where asked for, the constant for its codename, and answers whether both
were free. The property stays where the constant is taken. -/
def offer (model : ClassModel) (p : Property) (withConstant : Bool) (className : String) :
    Reporting (ClassModel × Bool) :=
  match model.addProperty p with
  | .error e => model.refuse p.codename className e
  | .ok model =>
    if withConstant then model.offerConstant p.codename className else return (model, true)

end ClassModel

namespace Project

variable (project : Project) (options : Options)

/-- Adds the typed link of an element. A content type without a class name cannot be linked to by
its class, so such a link is left out. -/
def addTypedLink (classes : Classes) (element : Element) : Reporting Classes :=
  match element.typedLink project.contentTypes options with
  | .ok (some p) => do
    let (typed, _) ← classes.typed.offer p false classes.base.className.text
    return { classes with typed }
  | .ok none => return classes
  | .error (.invalidIdentifier _) => return classes
  | .error e => Reporting.ofExcept (.error e)

/-- Adds the property of an element and the constant for its codename, and the typed link after
them. Where the codename is taken, the typed link is left out. -/
def addBase (classes : Classes) (element : Element) (p : Property) : Reporting Classes := do
  let (base, isAdded) ← classes.base.offer p true classes.base.className.text
  let classes := { classes with base }
  if isAdded && options.typedLinks && element.kind.isItemReference then
    project.addTypedLink options classes element
  else return classes

/-- Adds an element to the classes of its content type. -/
def addElement (classes : Classes) (element : Element) : Reporting Classes :=
  match options.typeName element.kind with
  | .error (.unsupportedKind kind) => do
    Reporting.report
      (.unknownElementType kind.tag classes.base.className.text element.codename)
    return classes
  | .error e => Reporting.ofExcept (.error e)
  | .ok typeName =>
    match Property.ofElement element typeName with
    | .ok p => project.addBase options classes element p
    | .error (.invalidIdentifier _) => do
      Reporting.report (.invalidElementIdentifier classes.base.sourceCodename element.codename)
      return classes
    | .error e => Reporting.ofExcept (.error e)

/-- Adds the property with the attributes of an item in the dialect that has one. -/
def addSystem (classes : Classes) : Classes :=
  match options.dialect.systemType? with
  | some typeName => { classes with base := classes.base.addSystemIfAbsent typeName }
  | none => classes

/-- Compiles a content type, unless no class name can be made from its codename. -/
def compileContentType (type : ContentType) : Reporting (Option CompiledContentType) :=
  match Identifier.ofText type.codename with
  | .error (.invalidIdentifier _) => do
    Reporting.report (.skippedContentType type.codename)
    return none
  | .error e => Reporting.ofExcept (.error e)
  | .ok className => do
    let elements ← Reporting.ofExcept (type.concreteElements project.snippets)
    let classes ←
      elements.foldlM (project.addElement options) (Classes.ofClassName type.codename className)
    return some (addSystem options classes).toCompiled

/-- Compiles the content types of a project in their order. -/
def compile : Reporting (List CompiledContentType) := do
  let results ← project.contentTypes.mapM (project.compileContentType options)
  return results.reduceOption

end Project

end ContentClasses
