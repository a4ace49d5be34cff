import ContentClasses.Dialect
import ContentClasses.StructuredKinds

/-!
# Property types

The type of the property for an element, by its kind. Each dialect has a table of its own; in the
one for delivery three kinds have a structured type besides the plain one.
-/

namespace ContentClasses

/-- What is to be generated. -/
structure Options where
  dialect : Dialect := .delivery
  structured : StructuredKinds := ∅
  typedLinks : Bool := false
deriving DecidableEq, Repr

namespace Options

/-- The property of a kind has its structured type. -/
def usesStructured (options : Options) (kind : ElementKind) : Bool :=
  options.dialect == .delivery && options.structured.appliesTo kind

/-- The type in delivery of a kind that is not structured. -/
def plainDeliveryType? : ElementKind → Option String
  | .text | .richText | .urlSlug | .custom => some "string"
  | .number => some "decimal?"
  | .multipleChoice => some "IEnumerable<IMultipleChoiceOption>"
  | .dateTime => some "DateTime?"
  | .asset => some "IEnumerable<IAsset>"
  | .linkedItems | .subpages => some "IEnumerable<object>"
  | .taxonomy => some "IEnumerable<ITaxonomyTerm>"
  | .guidelines | .snippet | .unknown _ => none

/-- The structured type in delivery, for the kinds that have one. -/
def structuredDeliveryType? : ElementKind → Option String
  | .richText => some "IRichTextContent"
  | .dateTime => some "IDateTimeContent"
  | .linkedItems => some "IEnumerable<IContentItem>"
  | _ => none

/-- The type in management. -/
def managementType? : ElementKind → Option String
  | .text => some "TextElement"
  | .richText => some "RichTextElement"
  | .number => some "NumberElement"
  | .multipleChoice => some "MultipleChoiceElement"
  | .dateTime => some "DateTimeElement"
  | .asset => some "AssetElement"
  | .linkedItems => some "LinkedItemsElement"
  | .subpages => some "SubpagesElement"
  | .taxonomy => some "TaxonomyElement"
  | .urlSlug => some "UrlSlugElement"
  | .custom => some "CustomElement"
  | .guidelines | .snippet | .unknown _ => none

/-- The type of the property for a kind, if there is one. -/
def typeName? (options : Options) (kind : ElementKind) : Option String :=
  match options.dialect with
  | .management => managementType? kind
  | .delivery =>
    if options.usesStructured kind then structuredDeliveryType? kind else plainDeliveryType? kind

/-- The type of the property for a kind. -/
def typeName (options : Options) (kind : ElementKind) : Except Error String :=
  match options.typeName? kind with
  | some name => .ok name
  | none => .error (.unsupportedKind kind)

end Options

end ContentClasses
