import ContentClasses.Identifier

/-!
# Class models

The class of a content type: its properties in order, one for each codename, and the codenames for
which it declares a constant. The property `system` is the only one that may be replaced.
-/

namespace ContentClasses

/-- A property of a class. -/
structure Property where
  codename : String
  identifier : Identifier
  typeName : String
  id? : Option String := none
  externalId? : Option String := none
  constantEnding? : Option String := none
deriving DecidableEq, Repr

namespace Property

/-- The codename of the property with the attributes of an item. -/
def systemCodename : String := "system"

/-- The property of an element. -/
def ofElement (element : Element) (typeName : String) : Except Error Property := do
  let identifier ← Identifier.ofText element.codename
  return {
    codename := element.codename
    identifier
    typeName
    id? := element.id?
    externalId? := element.externalId? }

/-- The property with the attributes of an item. -/
def system (typeName : String) : Property where
  codename := systemCodename
  identifier := ⟨"System"⟩
  typeName := typeName

/-- The property has the codename that is kept for the attributes of an item. -/
def isSystem (p : Property) : Bool :=
  p.codename == systemCodename

/-- The name of the constant for the codename of a property. -/
def constantName (p : Property) : String :=
  p.identifier.text ++ p.constantEnding?.getD "Codename"

/-- A property is written with the fields that are set. -/
def toJson (p : Property) : List (String × Json) :=
  [("codename", .ofString p.codename), ("identifier", .ofString p.identifier.text),
      ("type_name", .ofString p.typeName)] ++
    Json.memberIfSet "id" .ofString p.id? ++
    Json.memberIfSet "external_id" .ofString p.externalId? ++
    Json.memberIfSet "codename_suffix" .ofString p.constantEnding?

end Property

/-- The class of a content type. -/
structure ClassModel where
  sourceCodename : String
  className : Identifier
  properties : List Property := []
  constants : List String := []
deriving DecidableEq, Repr

namespace ClassModel

/-- A class without members, named after the codename of its content type. -/
def ofCodename (codename : String) : Except Error ClassModel := do
  let className ← Identifier.ofText codename
  return { sourceCodename := codename, className }

/-- The property of that codename. -/
def property? (model : ClassModel) (codename : String) : Option Property :=
  model.properties.find? (·.codename == codename)

/-- The properties with the first of the same codename replaced. -/
def replaceFirst (p : Property) : List Property → List Property
  | [] => []
  | q :: properties =>
    if q.codename = p.codename then p :: properties else q :: replaceFirst p properties

/-- Adds a property. A codename that is taken is an error, but for the codename `system`: there the
new property takes the place of the old one. -/
def addProperty (model : ClassModel) (p : Property) : Except Error ClassModel :=
  if (model.property? p.codename).isNone then
    .ok { model with properties := model.properties ++ [p] }
  else if p.isSystem then .ok { model with properties := replaceFirst p model.properties }
  else .error (.duplicateProperty p.codename model.className.text)

/-- Adds the property with the attributes of an item, unless the class has one of that codename. -/
def addSystemIfAbsent (model : ClassModel) (typeName : String) : ClassModel :=
  if (model.property? Property.systemCodename).isNone then
    { model with properties := model.properties ++ [Property.system typeName] }
  else model

/-- Adds a constant for a codename. -/
def addConstant (model : ClassModel) (codename : String) : Except Error ClassModel :=
  if codename ∈ model.constants then .error (.duplicateConstant codename model.className.text)
  else .ok { model with constants := model.constants ++ [codename] }

/-- The class has no property. -/
def isEmpty (model : ClassModel) : Bool :=
  model.properties.isEmpty

/-- A class is written with all its fields. -/
def toJson (model : ClassModel) : Json :=
  .ofMembers
    [("source_codename", .ofString model.sourceCodename),
      ("class_name", .ofString model.className.text),
      ("properties", .array (model.properties.map fun p => .ofMembers p.toJson)),
      ("property_codename_constants", .ofStrings model.constants)]

end ClassModel

end ContentClasses
