import ContentClasses.Proofs.RegularLiterals
import ContentClasses.Proofs.Templates

/-!
# Reading sources back

A source is read line by line, by what each line is marked with. `Project.sources_read_back` says
that the reading of a source of a run gives the dialect, the namespace, and all that the source is
made from: names, types, codenames and ids.
-/

namespace ContentClasses.CSharp

/-- A property as a source lists it: its type and name, and the values of its attributes. -/
structure PropertyListing where
  typeName : String
  name : String
  codename? : Option String := none
  id? : Option String := none
  externalId? : Option String := none
deriving DecidableEq, Repr

/-- A property is listed with its codename and the ids of its element in management. -/
def PropertyListing.ofProperty : Dialect → Property → PropertyListing
  | .delivery, p => { typeName := p.typeName, name := p.identifier.text }
  | .management, p => {
    typeName := p.typeName
    name := p.identifier.text
    codename? := some p.codename
    id? := p.id?
    externalId? := p.externalId? }

/-- What a source lists. Attributes are those of the property that comes next. -/
structure Listing where
  dialect? : Option Dialect := none
  namespaceName? : Option String := none
  className? : Option String := none
  codename? : Option String := none
  constants : List (String × String) := []
  properties : List PropertyListing := []
  entries : List (String × String) := []
  attributes : List (String × String) := []
deriving DecidableEq, Repr

/-- The dialect whose types are declared in a namespace. -/
def dialectOf? (namespaceName : String) : Option Dialect :=
  [Dialect.delivery, Dialect.management].find? fun dialect =>
    abstractionsOf dialect == namespaceName

namespace Listing

/-- A property takes the attributes in front of it. -/
def addProperty (listing : Listing) (typeName name : String) : Listing :=
  { listing with
    properties := listing.properties ++ [
      { typeName, name
        codename? := listing.attributes.lookup "JsonProperty"
        id? := listing.attributes.lookup "KontentElementId"
        externalId? := listing.attributes.lookup "KontentElementExternalId" }]
    attributes := [] }

/-- Notes what a line without a literal says. There is one namespace and one class. -/
def notePlain (listing : Listing) : Role → Option Listing
  | .uses name => some { listing with dialect? := listing.dialect?.or (dialectOf? name) }
  | .inside name =>
    if listing.namespaceName?.isSome then none
    else some { listing with namespaceName? := some name }
  | .declares (.type name) =>
    if listing.className?.isSome then none else some { listing with className? := some name }
  | .declares (.property typeName name) => some (listing.addProperty typeName name)
  | _ => none

/-- Notes what a line says about a value. The first constant of a class is that of its own
codename. -/
def noteValue (listing : Listing) (value : String) : Role → Option Listing
  | .attribute name => some { listing with attributes := listing.attributes ++ [(name, value)] }
  | .declares (.constant name) =>
    if listing.codename?.isSome then
      some { listing with constants := listing.constants ++ [(name, value)] }
    else if name = "Codename" then some { listing with codename? := some value } else none
  | .declares (.entry name) => some { listing with entries := listing.entries ++ [(name, value)] }
  | _ => none

/-- Notes what a line is marked with. -/
def note (listing : Listing) : Mark → Option Listing
  | ⟨some role, none⟩ => listing.notePlain role
  | ⟨some role, some text⟩ => do
    let value ← unescape? text
    listing.noteValue (String.ofList value) role
  | ⟨none, _⟩ => none

/-- Notes what some lines are marked with, one after the other. -/
def noteAll (listing : Listing) (marks : List Mark) : Option Listing :=
  marks.foldlM note listing

/-- What a source lists, if every line of it can be understood. -/
def read (source : String) : Option Listing :=
  ({} : Listing).noteAll (marks source)

section Steps
variable {listing next : Listing} {role : Role} {value name typeName : String} {xs ys : List Mark}
  {dialect : Dialect} {p : Property}

lemma note_valued : listing.note (.valued role value) = listing.noteValue value role := by
  rw [Mark.valued, note, unescape?_escape]
  show listing.noteValue (String.ofList value.toList) role = _
  rw [String.ofList_toList]

lemma noteAll_singleton (mark : Mark) : listing.noteAll [mark] = listing.note mark := by
  rw [noteAll, List.foldlM_cons]
  exact bind_pure _

/-- Marks are noted one part after the other. -/
lemma noteAll_append (front : listing.noteAll xs = some next) :
    listing.noteAll (xs ++ ys) = next.noteAll ys := by
  rw [noteAll] at front
  rw [noteAll, List.foldlM_append, front]
  rfl

lemma noteAll_cons {mark : Mark} (first : listing.note mark = some next) :
    listing.noteAll (mark :: ys) = next.noteAll ys := by
  rw [noteAll, List.foldlM_cons, first]
  rfl

/-- A listing that takes in one item with each group of marks takes in all items. -/
lemma noteAll_flatMap {α : Type} {f : α → List Mark} {g : List α → Listing}
    (step : ∀ as a, (g as).noteAll (f a) = some (g (as ++ [a]))) (as : List α) :
    (g []).noteAll (as.flatMap f) = some (g as) := by
  induction as using List.reverseRecOn with
  | nil => rfl
  | append_singleton as a ih =>
    rw [List.flatMap_append, noteAll_append ih, List.flatMap_singleton, step]

/-- Where each mark adds its element to a listing, a row of marks adds the row of elements. -/
lemma noteAll_map {α : Type} {f : α → Mark} {g : List α → Listing}
    (step : ∀ as a, (g as).note (f a) = some (g (as ++ [a]))) (as : List α) :
    (g []).noteAll (as.map f) = some (g as) := by
  rw [List.map_eq_flatMap]
  refine noteAll_flatMap (fun as a => ?_) as
  rw [noteAll_singleton, step]

/-- The attributes of a property are read as its codename and its ids. -/
lemma noteAll_propertyMarks (free : listing.attributes = []) :
    listing.noteAll (propertyMarks dialect p) = some
      { listing with properties := listing.properties ++ [.ofProperty dialect p] } := by
  have attributes : listing.noteAll
      ((CSharp.attributes dialect p).map fun a => .valued (.attribute a.1) a.2) =
        some { listing with attributes := CSharp.attributes dialect p } := by
    have run := noteAll_map (g := fun as => { listing with attributes := as })
      (f := fun a : String × String => .valued (.attribute a.1) a.2)
      (fun as a => note_valued) (CSharp.attributes dialect p)
    rw [← free] at run
    exact run
  rw [propertyMarks, noteAll_append attributes, noteAll_singleton]
  obtain ⟨codename, identifier, type, id?, externalId?, ending?⟩ := p
  cases dialect with
  | delivery =>
    simp [note, Mark.plain, notePlain, addProperty, CSharp.attributes, PropertyListing.ofProperty,
      free]
  | management =>
    cases id? <;> cases externalId? <;>
      simp [note, Mark.plain, notePlain, addProperty, CSharp.attributes, PropertyListing.ofProperty,
        List.lookup, free]

/-- The namespaces that a source uses tell its dialect. -/
lemma noteAll_frameMarks {used : List String} (found : used.findSome? dialectOf? = some dialect) :
    ({} : Listing).noteAll (frameMarks used name) =
      some { dialect? := some dialect, namespaceName? := some name } := by
  have uses := noteAll_map (g := fun as => { dialect? := as.findSome? dialectOf? })
    (f := fun name => .plain (.uses name)) (fun as name => by
      show some _ = some _
      simp [List.findSome?_append]) used
  rw [List.findSome?_nil, found] at uses
  rw [frameMarks, noteAll_append uses, noteAll_singleton]
  rfl

/-- The marks of the constants are noted as the codename of the class and those of its members. -/
lemma noteAll_constantMarks {model : ClassModel} (first : listing.codename? = none)
    (none : listing.constants = []) :
    listing.noteAll (constantMarks model) = some
      { listing with
        codename? := some model.sourceCodename
        constants := model.constants.map fun c => (constantName model c, c) } := by
  have own : listing.note (.valued (.declares (.constant "Codename")) model.sourceCodename) =
      some { listing with codename? := some model.sourceCodename } := by
    rw [note_valued, noteValue, first]
    rfl
  have others := noteAll_map
    (g := fun as => { listing with
      codename? := some model.sourceCodename
      constants := as.map fun c => (constantName model c, c) })
    (f := fun c => .valued (.declares (.constant (constantName model c))) c)
    (fun as c => by simp [note_valued, noteValue]) model.constants
  rw [List.map_nil, ← none] at others
  rw [constantMarks, noteAll_cons own]
  exact others

/-- The marks of the properties are noted as the properties with their attributes. -/
lemma noteAll_properties {ps : List Property} (free : listing.attributes = [])
    (none : listing.properties = []) :
    listing.noteAll (ps.flatMap (propertyMarks dialect)) =
      some { listing with properties := ps.map (.ofProperty dialect) } := by
  have run := noteAll_flatMap
    (g := fun ps => { listing with properties := ps.map (.ofProperty dialect) })
    (f := propertyMarks dialect) (fun ps p => by
      have free : { listing with properties := ps.map (.ofProperty dialect) }.attributes = [] :=
        free
      rw [noteAll_propertyMarks free, List.map_append]
      rfl) ps
  rw [List.map_nil, ← none] at run
  exact run

end Steps

section Sources
variable {context : Context} {model : ClassModel} {compiled : List CompiledContentType}

/-- The dialect is told from the namespaces that a class uses. -/
lemma findSome?_usedByClass (dialect : Dialect) :
    (usedByClass dialect).findSome? dialectOf? = some dialect := by
  cases dialect with
  | delivery => decide
  | management => decide

/-- The source of a class lists all of it. -/
lemma read_classSource (readable : Readable model) (plain : context.Plain) :
    read (classSource context model) = some {
      dialect? := some context.dialect
      namespaceName? := some context.namespaceName
      className? := some model.className.text
      codename? := some model.sourceCodename
      constants := model.constants.map fun c => (constantName model c, c)
      properties := model.properties.map (.ofProperty context.dialect) } := by
  rw [read, marks_classSource readable plain,
    noteAll_append (noteAll_frameMarks (findSome?_usedByClass context.dialect)), noteAll_cons rfl,
    noteAll_append (noteAll_constantMarks rfl rfl), noteAll_properties rfl rfl]

/-- The source of a class for typed links lists its properties. -/
lemma read_typedClassSource (readable : Readable model) (plain : context.Plain) :
    read (typedClassSource context model) = some {
      dialect? := some context.dialect
      namespaceName? := some context.namespaceName
      className? := some model.className.text
      properties := model.properties.map (.ofProperty context.dialect) } := by
  rw [read, marks_typedClassSource readable plain,
    noteAll_append (noteAll_frameMarks (findSome?_usedByClass context.dialect)), noteAll_cons rfl,
    noteAll_properties rfl rfl]

/-- The source of the lookup lists the classes and codenames of all content types. -/
lemma read_typeProviderSource (pascal : ∀ c ∈ compiled, c.model.className.IsPascal)
    (plain : context.Plain) :
    read (typeProviderSource context compiled) = some {
      dialect? := some context.dialect
      namespaceName? := some context.namespaceName
      className? := some typeProviderName
      entries := compiled.map fun c => (c.model.className.text, c.model.sourceCodename) } := by
  have found :
      (usedByTypeProvider context.dialect).findSome? dialectOf? = some context.dialect := by
    cases context.dialect with
    | delivery => decide
    | management => decide
  rw [read, marks_typeProviderSource pascal plain, noteAll_append (noteAll_frameMarks found),
    noteAll_cons rfl]
  exact noteAll_map
    (g := fun cs => {
      dialect? := some context.dialect
      namespaceName? := some context.namespaceName
      className? := some typeProviderName
      entries := cs.map fun c => (c.model.className.text, c.model.sourceCodename) })
    (f := fun c => .valued (.declares (.entry c.model.className.text)) c.model.sourceCodename)
    (fun cs c => by simp [note_valued, noteValue]) compiled

end Sources

end Listing

end ContentClasses.CSharp

namespace ContentClasses.Project

open CSharp

variable {project : Project} {options : Options} {config : Config}
  {compiled : List CompiledContentType}

/-- The sources of a compilation that succeeds are read back, in either dialect and in every
namespace that the check of a configuration accepts. What is read is the dialect, the namespace and
all that a source is made from. Whatever characters codenames and ids hold, each source declares its
class, constants, properties and entries and nothing else, and what stands outside of the quotes of
its lines is made from names and types alone. -/
theorem sources_read_back (h : (project.compile options).result = .ok compiled)
    (valid : config.validate = .ok ()) (dialect : Dialect) :
    let context : Context := ⟨config.namespaceName, dialect⟩
    let frame : Listing :=
      { dialect? := some dialect, namespaceName? := some config.namespaceName }
    (∀ c ∈ compiled,
      let model := c.model
      let source := classSource context model
      Listing.read source = some
          { frame with
            className? := some model.className.text
            codename? := some model.sourceCodename
            constants := model.constants.map fun x => (constantName model x, x)
            properties := model.properties.map (.ofProperty dialect) } ∧
        declarations source =
          .type model.className.text :: .constant "Codename" ::
            (model.constants.map fun x => .constant (constantName model x)) ++
            model.properties.map (fun p => .property p.typeName p.identifier.text) ∧
        template source =
          classLines context model (emptyConstantLines model ++
            model.properties.flatMap fun p => "" :: emptyPropertyLines dialect p) ++ [""]) ∧
      (∀ c ∈ compiled, ∀ model ∈ c.typed?,
        let source := typedClassSource context model
        Listing.read source = some
            { frame with
              className? := some model.className.text
              properties := model.properties.map (.ofProperty dialect) } ∧
          declarations source =
            .type model.className.text ::
              model.properties.map (fun p => .property p.typeName p.identifier.text) ∧
          template source =
            classLines context model
              ([""].intercalate (model.properties.map (emptyPropertyLines dialect))) ++ [""]) ∧
      let source := typeProviderSource context compiled
      Listing.read source = some
          { frame with
            className? := some typeProviderName
            entries := compiled.map fun c => (c.model.className.text, c.model.sourceCodename) } ∧
        declarations source =
          .type typeProviderName :: compiled.map (fun c => .entry c.model.className.text) ∧
        template source =
          (typeProviderLines context (compiled.map withoutCodename)).1 ++ [""] := by
  intro context frame
  -- What the lemmas for the three kinds of sources ask of names holds of compiled ones.
  have plain : context.Plain := Config.plain_of_validate valid dialect
  refine ⟨fun c mem => ?_, fun c mem typed some => ?_, ?_⟩
  · have readable := (readable_of_mem h mem).1
    exact ⟨Listing.read_classSource readable plain,
      declarations_classSource readable.toLegible plain.lineFeed,
      template_classSource readable plain⟩
  · have readable := (readable_of_mem h mem).2 typed some
    exact ⟨Listing.read_typedClassSource readable plain,
      declarations_typedClassSource readable.toLegible plain.lineFeed,
      template_typedClassSource readable plain⟩
  · have pascal := isPascal_of_mem h
    exact ⟨Listing.read_typeProviderSource pascal plain,
      declarations_typeProviderSource (fun c mem => (pascal c mem).isWord)
        (fun c mem => (pascal c mem).notMem (by decide)) plain.lineFeed,
      template_typeProviderSource pascal plain⟩

/-- An album with ids that would end a literal, a line or a class if they were not escaped, and with
links to photos. -/
def album : Project where
  contentTypes := [
    { id := "t1", codename := "album \x22a\x22", name := "Album"
      elements := [
        { codename := "cover\n\x7d", kind := .asset, id? := some ""
          externalId? := some "\x22)]\n        public int Evil \x7b get; set; \x7d // \x5c" },
        { codename := "photos", kind := .subpages, allowedTypes := [.codename "photo"] }] },
    { id := "t2", codename := "photo", name := "Photo" }]
  snippets := []

/-- All that the sources of the album are made from is read back. -/
theorem album_read_back :
    let config : Config := { managementApi := true }
    let options : Options := { dialect := .management, typedLinks := true }
    let context : Context := ⟨config.namespaceName, .management⟩
    let frame : Listing :=
      { dialect? := some .management, namespaceName? := some "ContentModels" }
    config.validate = .ok () ∧
      ∃ c photo typed, (album.compile options).result = .ok [c, photo] ∧ c.typed? = some typed ∧
        Listing.read (classSource context c.model) = some
          { frame with
            className? := some "AlbumA"
            codename? := some "album \x22a\x22"
            constants := [("CoverCodename", "cover\n\x7d"), ("PhotosCodename", "photos")]
            properties := [
              { typeName := "AssetElement", name := "Cover", codename? := some "cover\n\x7d"
                id? := some ""
                externalId? :=
                  some "\x22)]\n        public int Evil \x7b get; set; \x7d // \x5c" },
              { typeName := "SubpagesElement", name := "Photos", codename? := some "photos" }] } ∧
        Listing.read (typedClassSource context typed) = some
          { frame with
            className? := some "AlbumATyped"
            properties := [
              { typeName := "IEnumerable<Photo>", name := "PhotosPhoto"
                codename? := some "photos_Photo" }] } ∧
        Listing.read (typeProviderSource context [c, photo]) = some
          { frame with
            className? := some "CustomTypeProvider"
            entries := [("AlbumA", "album \x22a\x22"), ("Photo", "photo")] } := by
  intro config options context frame
  have valid : config.validate = .ok () := by decide
  have fine : ∃ compiled ∈ (album.compile options).result.toOption, compiled.length = 2 ∧
      (∃ c ∈ compiled.head?, ∃ typed ∈ c.typed?,
        (c.model.className.text = "AlbumA" ∧ c.model.sourceCodename = "album \x22a\x22" ∧
          c.model.constants.map (fun x => (constantName c.model x, x)) =
            [("CoverCodename", "cover\n\x7d"), ("PhotosCodename", "photos")] ∧
          c.model.properties.map (PropertyListing.ofProperty .management) = [
            { typeName := "AssetElement", name := "Cover", codename? := some "cover\n\x7d"
              id? := some ""
              externalId? :=
                some "\x22)]\n        public int Evil \x7b get; set; \x7d // \x5c" },
            { typeName := "SubpagesElement", name := "Photos", codename? := some "photos" }]) ∧
        typed.className.text = "AlbumATyped" ∧
        typed.properties.map (PropertyListing.ofProperty .management) = [
          { typeName := "IEnumerable<Photo>", name := "PhotosPhoto"
            codename? := some "photos_Photo" }]) ∧
      compiled.map (fun c => (c.model.className.text, c.model.sourceCodename)) =
        [("AlbumA", "album \x22a\x22"), ("Photo", "photo")] := by decide
  obtain ⟨compiled, ran, two, ⟨c, first, typed, some, base, links⟩, entries⟩ := exists_eq_ok fine
  obtain ⟨c, photo, rfl⟩ := List.length_eq_two.mp two
  cases first
  obtain ⟨classes, variants, provider, -⟩ := sources_read_back ran valid .management
  obtain ⟨own, -⟩ := classes c List.mem_cons_self
  obtain ⟨variant, -⟩ := variants c List.mem_cons_self typed some
  obtain ⟨name, codename, constants, properties⟩ := base
  obtain ⟨typedName, typedProperties⟩ := links
  rw [name, codename, constants, properties] at own
  rw [typedName, typedProperties] at variant
  rw [entries] at provider
  exact ⟨valid, c, photo, typed, ran, some, own, variant, provider⟩

end ContentClasses.Project
