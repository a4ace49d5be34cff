import ContentClasses.Proofs.ClassNames
import ContentClasses.Proofs.Marks

/-!
# The literals of the sources

The literals of the sources of a run are those of the codenames and ids of its classes, in order.
`Project.literals_written` says which of them are regular literals of C#: all of them, but for those
of a text with one of the three new lines that escaping leaves as they are.
-/

namespace ContentClasses

open CSharp

namespace Property

/-- No name and no type of a property holds a quote. -/
def Unquoted (p : Property) : Prop :=
  '\x22' ∉ p.typeName.toList ∧ '\x22' ∉ p.identifier.text.toList

namespace Unquoted
variable {options : Options} {e : Element} {p : Property} {typeName : String}

/-- The type and the name of a property of an element hold no quotes. -/
lemma ofElement (h : options.property? e = some p) : p.Unquoted := by
  obtain ⟨typed, named, -⟩ := Options.property?_eq_some h
  exact ⟨(Options.isWord_and_unquoted_of_typeName? typed).2,
    (Identifier.isPascal_of_ofText? named).notMem (by decide)⟩

lemma system {dialect : Dialect} (h : dialect.systemType? = some typeName) :
    (Property.system typeName).Unquoted := by
  cases dialect with
  | delivery =>
    cases h
    exact ⟨by decide, by decide⟩
  | management => cases h

lemma ofLink {types : List ContentType} {dialect : Dialect} (link : p.IsLink types dialect) :
    p.Unquoted := by
  refine ⟨?_, (Identifier.isPascal_of_ofText? link.identifier).notMem (by decide)⟩
  obtain ⟨target, -, className, named, typeName⟩ := link.typeName
  have absent : '\x22' ∉ className.text.toList :=
    (Identifier.isPascal_of_ofText? named).notMem (by decide)
  obtain single | collection := typeName
  · rw [single]
    exact absent
  · rw [collection]
    simpa [Dialect.collectionOf] using absent

end Unquoted

end Property

/-- A well named class is readable where its properties have no quotes. -/
lemma ClassModel.WellNamed.readable {model : ClassModel} (named : model.WellNamed)
    (properties : ∀ p ∈ model.properties, p.Unquoted) : Readable model where
  toLegible := named.legible
  className_unquoted := named.className.notMem (by decide)
  typeNames_unquoted p hp := (properties p hp).1
  identifiers_unquoted p hp := (properties p hp).2
  constants_unquoted c mem := by
    obtain ⟨identifier, made, name⟩ := named.constantName mem
    rw [name]
    exact ((Identifier.isPascal_of_ofText? made).append (by decide)).notMem (by decide)

/-- A configuration that passes its check has a namespace on one line and without quotes. -/
lemma Config.plain_of_validate {config : Config} (valid : config.validate = .ok ())
    (dialect : Dialect) : Context.Plain ⟨config.namespaceName, dialect⟩ where
  lineFeed := lineFeed_notMem_of_validate valid
  quote := notMem_of_validate valid (by decide) (by decide)

namespace CSharp

/-- A text is what stands in the literal of a value. It has no quote and no backslash but those of
simple escapes, no line feed and no carriage return, and it is regular exactly when the value holds
none of the new lines that are not escaped. -/
structure Written (value : String) (text : List Char) : Prop where
  eq_escape : text = escape value.toList
  escaped : Regular ['\n', '\r'] text
  regular_iff : Regular newLines text ↔ ∀ c ∈ value.toList, c ∉ rawNewLines

lemma written (value : String) : Written value (escape value.toList) :=
  ⟨rfl, regular_escape _, regular_escape_newLines_iff⟩

/-- The values of the attributes of the properties of a class, in order. -/
def attributeValues (dialect : Dialect) (model : ClassModel) : List String :=
  model.properties.flatMap fun p => (attributes dialect p).map Prod.snd

section Literals
variable {context : Context} {model : ClassModel} {values : List String} {dialect : Dialect}
  {compiled : List CompiledContentType}

lemma written_map : List.Forall₂ Written values (values.map fun value => escape value.toList) :=
  List.forall₂_map_right_iff.mpr (List.forall₂_same.mpr fun value _ => written value)

/-- The literals of values without new lines that are not escaped are all regular. -/
lemma regular_of_written {texts : List (List Char)} (rows : List.Forall₂ Written values texts)
    (clean : ∀ value ∈ values, ∀ c ∈ value.toList, c ∉ rawNewLines) :
    texts = (values.map fun value => escape value.toList) ∧
      ∀ text ∈ texts, Regular newLines text := by
  induction rows with
  | nil => exact ⟨rfl, nofun⟩
  | cons head _ ih =>
    obtain ⟨first, others⟩ := List.forall_mem_cons.mp clean
    obtain ⟨rest, regular⟩ := ih others
    rw [List.map_cons, ← head.eq_escape, ← rest, List.forall_mem_cons]
    exact ⟨rfl, head.regular_iff.mpr first, regular⟩

/-- There are no literals in the head of a source. -/
lemma texts_frameMarks (used : List String) (name : String) :
    (frameMarks used name).filterMap (·.text?) = [] := by
  simp [frameMarks, Mark.plain]

/-- The literals of the constants are the codename of the class and those of its members. -/
lemma texts_constantMarks :
    (constantMarks model).filterMap (·.text?) =
      (model.sourceCodename :: model.constants).map fun value => escape value.toList := by
  simp [constantMarks, Mark.valued, List.filterMap_map]

/-- The literals of the properties are the values of their attributes. -/
lemma texts_propertyMarks :
    (model.properties.flatMap (propertyMarks dialect)).filterMap (·.text?) =
      (attributeValues dialect model).map fun value => escape value.toList := by
  rw [List.filterMap_flatMap, attributeValues, List.map_flatMap]
  refine List.flatMap_congr fun p _ => ?_
  simp [propertyMarks, Mark.valued, Mark.plain, List.filterMap_map, Function.comp_def]

/-- The literals of the source of a class are those of its codename, of its constants and of the
attributes of its properties. -/
lemma literals_classSource (readable : Readable model) (plain : context.Plain) :
    literals (classSource context model) =
      (model.sourceCodename :: model.constants ++ attributeValues context.dialect model).map
        fun value => escape value.toList := by
  rw [literals_eq, marks_classSource readable plain, List.filterMap_append,
    texts_frameMarks, List.nil_append, List.filterMap_cons_none rfl, List.filterMap_append,
    texts_constantMarks, texts_propertyMarks, ← List.map_append]

/-- The literals of the source of a class for typed links are those of the attributes of its
properties. -/
lemma literals_typedClassSource (readable : Readable model) (plain : context.Plain) :
    literals (typedClassSource context model) =
      (attributeValues context.dialect model).map fun value => escape value.toList := by
  rw [literals_eq, marks_typedClassSource readable plain, List.filterMap_append,
    texts_frameMarks, List.nil_append, List.filterMap_cons_none rfl, texts_propertyMarks]

/-- The literals of the source of the lookup are those of the codenames. -/
lemma literals_typeProviderSource (pascal : ∀ c ∈ compiled, c.model.className.IsPascal)
    (plain : context.Plain) :
    literals (typeProviderSource context compiled) =
      (compiled.map (·.model.sourceCodename)).map fun value => escape value.toList := by
  rw [literals_eq, marks_typeProviderSource pascal plain,
    List.filterMap_append, texts_frameMarks, List.nil_append, List.filterMap_cons_none rfl]
  simp [Mark.valued, List.filterMap_map, Function.comp_def]

end Literals

end CSharp

namespace Project
variable {project : Project} {options : Options} {config : Config} {c : CompiledContentType}
  {compiled : List CompiledContentType}

/-- The classes of a compiled content type are readable. -/
lemma readable_of_mem (h : (project.compile options).result = .ok compiled) (mem : c ∈ compiled) :
    Readable c.model ∧ ∀ typed ∈ c.typed?, Readable typed := by
  obtain ⟨type, -, ran⟩ := exists_type_of_mem h mem
  constructor
  · refine (wellNamed_model ran).readable fun p hp => ?_
    obtain ⟨e, made⟩ | ⟨typeName, typed, rfl⟩ := given_or_system ran hp
    · exact .ofElement made
    · exact .system typed
  · intro typed some
    obtain ⟨holds, -⟩ := compiled_typed ran some
    exact (wellNamed_typed ran some).readable fun p hp => .ofLink (holds.links p hp)

/-- The classes that come out of a compilation are named by identifiers. -/
lemma isPascal_of_mem (h : (project.compile options).result = .ok compiled) :
    ∀ c ∈ compiled, c.model.className.IsPascal :=
  fun _ mem => (wellNamed_of_mem h mem).model.className

/-- Every value is written as a literal with two quotes around a text without an unescaped quote,
without a backslash but those of simple escapes and without a line feed or a carriage return. The
sources of a compilation that succeeds hold the literals of their codenames and ids, in order, and
no others. Each of them is regular exactly when its value holds none of the new lines U+0085, U+2028
and U+2029. -/
theorem literals_written (h : (project.compile options).result = .ok compiled)
    (valid : config.validate = .ok ()) (dialect : Dialect) :
    let context : Context := ⟨config.namespaceName, dialect⟩
    (∀ value, ∃ text, (literal value).toList = '\x22' :: text ++ ['\x22'] ∧ Written value text) ∧
      (∀ c ∈ compiled,
        List.Forall₂ Written
            (c.model.sourceCodename :: c.model.constants ++ attributeValues dialect c.model)
            (literals (classSource context c.model)) ∧
          ∀ typed ∈ c.typed?, List.Forall₂ Written (attributeValues dialect typed)
            (literals (typedClassSource context typed))) ∧
      List.Forall₂ Written (compiled.map (·.model.sourceCodename))
        (literals (typeProviderSource context compiled)) := by
  intro context
  have plain : context.Plain := Config.plain_of_validate valid dialect
  refine ⟨fun value => ?_, fun c mem => ?_, ?_⟩
  · refine ⟨escape value.toList, ?_, written value⟩
    simp [literal]
  · obtain ⟨base, links⟩ := readable_of_mem h mem
    constructor
    · rw [literals_classSource base plain]
      exact written_map
    · intro typed some
      rw [literals_typedClassSource (links typed some) plain]
      exact written_map
  · rw [literals_typeProviderSource (isPascal_of_mem h) plain]
    exact written_map

/-- A content type with an external id of a title. -/
def pageWith (externalId : String) : Project where
  contentTypes := [
    { id := "t1", codename := "page", name := "Page"
      elements := [{ codename := "title", kind := .text, externalId? := some externalId }] }]
  snippets := []

/-- All literals in the source of a page are regular where the external id holds quotes, a backslash
and a line feed. -/
theorem page_literals_regular :
    let config : Config := { managementApi := true }
    config.validate = .ok () ∧
      ∃ c, ((pageWith "\x22old\x22 \x5c\n").compile { dialect := .management }).result = .ok [c] ∧
        (literals (classSource ⟨config.namespaceName, .management⟩ c.model)).map String.ofList =
          ["page", "title", "title", "\x5c\x22old\x5c\x22 \x5c\x5c\x5cn"] ∧
        ∀ text ∈ literals (classSource ⟨config.namespaceName, .management⟩ c.model),
          Regular newLines text := by
  intro config
  have valid : config.validate = .ok () := by decide
  have fine : ∃ compiled ∈
      ((pageWith "\x22old\x22 \x5c\n").compile { dialect := .management }).result.toOption,
      compiled.length = 1 ∧ ∀ c ∈ compiled,
        c.model.sourceCodename :: c.model.constants ++ attributeValues .management c.model =
          ["page", "title", "title", "\x22old\x22 \x5c\n"] := by decide
  obtain ⟨compiled, ran, one, values⟩ := exists_eq_ok fine
  obtain ⟨c, rfl⟩ := List.length_eq_one_iff.mp one
  obtain ⟨-, classes, -⟩ := literals_written ran valid .management
  obtain ⟨rows, -⟩ := classes c List.mem_cons_self
  rw [values c List.mem_cons_self] at rows
  obtain ⟨texts, regular⟩ := regular_of_written rows (by simp [rawNewLines])
  refine ⟨valid, c, ran, ?_, regular⟩
  rw [texts]
  decide

/-- The external id of a page that holds a line separator stands in the source as it is, which is
no regular literal. -/
theorem page_literal_broken :
    let config : Config := { managementApi := true }
    config.validate = .ok () ∧
      ∃ c, (pageWith "a\u2028b").compile { dialect := .management } = ⟨[], .ok [c]⟩ ∧
        ∃ text ∈ literals (classSource ⟨config.namespaceName, .management⟩ c.model),
          text = "a\u2028b".toList ∧ ¬ Regular newLines text := by
  intro config
  have valid : config.validate = .ok () := by decide
  have fine : ∃ compiled ∈
      ((pageWith "a\u2028b").compile { dialect := .management }).result.toOption,
      compiled.length = 1 ∧ ∀ c ∈ compiled,
        "a\u2028b" ∈ attributeValues .management c.model := by decide
  obtain ⟨compiled, ran, one, there⟩ := exists_eq_ok fine
  obtain ⟨c, rfl⟩ := List.length_eq_one_iff.mp one
  have quiet : ((pageWith "a\u2028b").compile { dialect := .management }).reported = [] := by decide
  have literals := literals_classSource (readable_of_mem ran List.mem_cons_self).1
    (Config.plain_of_validate valid .management)
  refine ⟨valid, c, ?_, escape "a\u2028b".toList, ?_, by decide, ?_⟩
  · rw [← quiet, ← ran]
  · rw [literals]
    exact List.mem_map_of_mem (List.mem_append_right _ (there c List.mem_cons_self))
  · simp [regular_escape_newLines_iff, rawNewLines]

end Project

end ContentClasses
