import ContentClasses.ClassModel
import ContentClasses.PropertyType

/-!
# Typed links

An element that links content items of exactly one content type gives a property whose type is the
class of that content type. It holds one item when the limit of the element admits no second one,
and a collection otherwise.
-/

namespace ContentClasses

/-- The property of a link to one item. It is kept under the codename of the content type. -/
def Property.ofSingleLink (target : ContentType) (className : Identifier) : Property where
  codename := target.codename
  identifier := className
  typeName := className.text

/-- The codename of the property of a link to several items. -/
def Element.collectionCodename (element : Element) (className : Identifier) : String :=
  element.codename ++ "_" ++ className.text

/-- The property of a link to several items. Its codename holds that of the element, so that it
differs from that of the property that the element has anyway. -/
def Property.ofCollectionLink (element : Element) (className : Identifier) (dialect : Dialect) :
    Except Error Property := do
  let codename := element.collectionCodename className
  let identifier ← Identifier.ofText codename
  return { codename, identifier, typeName := dialect.collectionOf className.text }

namespace Element

/-- The content type that an element allows with a reference: the first one that matches. -/
def resolve (element : Element) (types : List ContentType) (reference : Reference) :
    Except Error ContentType :=
  match types.find? (·.matchesReference reference) with
  | some type => .ok type
  | none => .error (.allowedTypeNotFound reference element.codename)

/-- The content types that an element allows, one for each reference. -/
def resolveAllowed (element : Element) (types : List ContentType) :
    Except Error (List ContentType) :=
  element.allowedTypes.mapM (element.resolve types)

/-- The property of a link to items of one content type. -/
def linkTo (element : Element) (target : ContentType) (dialect : Dialect) :
    Except Error Property := do
  let className ← Identifier.ofText target.codename
  if (ItemCountLimit.effective element.limit?).isSingleItem then
    return .ofSingleLink target className
  else Property.ofCollectionLink element className dialect

/-- The typed property of an element that links content items: none, unless it allows exactly one
content type. -/
def typedLink (element : Element) (types : List ContentType) (options : Options) :
    Except Error (Option Property) :=
  if !element.kind.isItemReference then .error (.notItemReference element.codename element.kind)
  else if types.isEmpty then .error .noContentTypesGiven
  else if !options.typedLinks then .error .typedLinksDisabled
  else do
    match ← element.resolveAllowed types with
    | [target] => some <$> element.linkTo target options.dialect
    | _ => return none

end Element

end ContentClasses
