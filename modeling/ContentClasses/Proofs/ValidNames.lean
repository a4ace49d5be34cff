import ContentClasses.Proofs.Names

/-!
# Names that a source may declare

Whatever the codenames of a schema are, a class and its properties are named by a capital with
letters and digits behind it, which is a valid identifier and no keyword. The constant for a
codename is named after a property that the class has, so that no other name for it is ever looked
for: `Project.compiled_names_valid`.
-/

namespace ContentClasses

namespace CSharp

/-- The words that have a meaning of their own in C#, always or in some places. -/
def keywords : List String :=
  ["abstract", "as", "base", "bool", "break", "byte", "case", "catch", "char", "checked", "class",
    "const", "continue", "decimal", "default", "delegate", "do", "double", "else", "enum", "event",
    "explicit", "extern", "false", "finally", "fixed", "float", "for", "foreach", "goto", "if",
    "implicit", "in", "int", "interface", "internal", "is", "lock", "long", "namespace", "new",
    "null", "object", "operator", "out", "override", "params", "private", "protected", "public",
    "readonly", "ref", "return", "sbyte", "sealed", "short", "sizeof", "stackalloc", "static",
    "string", "struct", "switch", "this", "throw", "true", "try", "typeof", "uint", "ulong",
    "unchecked", "unsafe", "ushort", "using", "virtual", "void", "volatile", "while",
    "add", "alias", "allows", "and", "args", "ascending", "async", "await", "by", "descending",
    "dynamic", "equals", "extension", "field", "file", "from", "get", "global", "group", "init",
    "into", "join", "let", "managed", "nameof", "nint", "not", "notnull", "nuint", "on", "or",
    "orderby", "partial", "record", "remove", "required", "scoped", "select", "set", "unmanaged",
    "value", "var", "when", "where", "with", "yield"]

/-- Every keyword starts with a small letter. -/
lemma all_keywords_isLower : keywords.all fun word => word.toList.head?.any Char.isLower := by
  decide +kernel

end CSharp

namespace Identifier.IsPascal
variable {identifier : Identifier}

/-- What starts with a capital is no keyword. -/
lemma notMem_keywords (pascal : identifier.IsPascal) : identifier.text ∉ CSharp.keywords := by
  intro mem
  obtain ⟨c, cs, text, capital, -⟩ := pascal
  have small := List.all_eq_true.mp CSharp.all_keywords_isLower identifier.text mem
  rw [text, List.head?_cons, Option.any_some] at small
  exact Char.not_isLower_of_isUpper capital small

end Identifier.IsPascal

namespace ClassModel

/-- The identifiers of a class: its own and those of its properties. -/
def names (model : ClassModel) : List Identifier :=
  model.className :: model.properties.map (·.identifier)

variable {model : ClassModel} {p : Property} {codename : String}

/-- A property that is found is found under its own codename. -/
lemma property?_codename (found : model.property? codename = some p) :
    model.property? p.codename = some p := by
  have same := List.find?_some found
  rw [eq_of_beq same]
  exact found

namespace WellNamed

/-- All names of a class that is well named are identifiers. -/
lemma isPascal_of_mem (named : model.WellNamed) {name : Identifier} (mem : name ∈ model.names) :
    name.IsPascal := by
  obtain rfl | given := List.mem_cons.mp mem
  · exact named.className
  · obtain ⟨p, hp, rfl⟩ := List.mem_map.mp given
    exact Identifier.isPascal_of_ofText? (named.properties p hp).identifier

/-- The constants of a class are those of properties that it has, in order. -/
lemma map_codename_constants (named : model.WellNamed) :
    (model.constants.filterMap model.property?).map (·.codename) = model.constants := by
  rw [List.map_filterMap]
  conv => rhs; rw [← List.filterMap_some (l := model.constants)]
  refine List.filterMap_congr fun c mem => ?_
  obtain ⟨p, hp, rfl⟩ := List.mem_map.mp (named.constants c mem)
  have found : model.property? p.codename = some p :=
    (find?_key_eq_some named.distinct).mpr ⟨hp, rfl⟩
  rw [found]
  rfl

/-- The constant for the codename of a property has the identifier of the property in front. -/
lemma constantName_of_property? (named : model.WellNamed)
    (found : model.property? p.codename = some p) :
    CSharp.constantName model p.codename = p.identifier.text ++ "Codename" := by
  have mem : p ∈ model.properties := List.mem_of_find?_eq_some found
  rw [CSharp.constantName, found]
  show p.constantName = _
  rw [Property.constantName, (named.properties p mem).constantEnding, Option.getD_none]

/-- The lines of the constants name each after its property. -/
lemma constantLines_eq (named : model.WellNamed) :
    CSharp.constantLines model =
      CSharp.constantLine "Codename" model.sourceCodename ::
        (model.constants.filterMap model.property?).map fun p =>
          CSharp.constantLine (p.identifier.text ++ "Codename") p.codename := by
  have lines : ∀ p ∈ model.constants.filterMap model.property?,
      CSharp.constantLine (p.identifier.text ++ "Codename") p.codename =
        CSharp.constantLine (CSharp.constantName model p.codename) p.codename := by
    intro p mem
    obtain ⟨c, -, found⟩ := List.mem_filterMap.mp mem
    rw [named.constantName_of_property? (property?_codename found)]
  rw [List.map_congr_left lines, CSharp.constantLines]
  conv => lhs; rw [← named.map_codename_constants, List.map_map]
  rfl

end WellNamed

end ClassModel

/-- The identifiers of the classes of a content type and of their properties. -/
def CompiledContentType.names (c : CompiledContentType) : List Identifier :=
  c.model.names ++ c.typed?.toList.flatMap ClassModel.names

namespace Project
variable {project : Project} {options : Options} {compiled : List CompiledContentType}

/-- In a compilation that succeeds, every class and every property is named by a capital with ASCII
letters and digits behind it, which is a valid identifier and no keyword. In the source of a class,
the constant for a codename is named by the property that the class has for it. -/
theorem compiled_names_valid (h : (project.compile options).result = .ok compiled) :
    ∀ c ∈ compiled,
      (∀ name ∈ c.names,
        name.IsPascal ∧ Identifier.isValid name.text ∧ name.text ∉ CSharp.keywords) ∧
      ∃ ps : List Property,
        ps.map (·.codename) = c.model.constants ∧
        (∀ p ∈ ps, c.model.property? p.codename = some p ∧
          CSharp.constantName c.model p.codename = p.identifier.text ++ "Codename") ∧
        CSharp.constantLines c.model =
          CSharp.constantLine "Codename" c.model.sourceCodename ::
            ps.map fun p => CSharp.constantLine (p.identifier.text ++ "Codename") p.codename := by
  intro c mem
  obtain ⟨type, -, ran⟩ := exists_type_of_mem h mem
  have named := wellNamed_model ran
  constructor
  · intro name hname
    have pascal : name.IsPascal := by
      obtain base | typed := List.mem_append.mp hname
      · exact named.isPascal_of_mem base
      · obtain ⟨model, hmodel, inside⟩ := List.mem_flatMap.mp typed
        exact (wellNamed_typed ran (Option.mem_toList.mp hmodel)).isPascal_of_mem inside
    exact ⟨pascal, pascal.isValid, pascal.notMem_keywords⟩
  · refine ⟨c.model.constants.filterMap c.model.property?, named.map_codename_constants, ?_,
      named.constantLines_eq⟩
    intro p hp
    obtain ⟨codename, -, found⟩ := List.mem_filterMap.mp hp
    have own := ClassModel.property?_codename found
    exact ⟨own, named.constantName_of_property? own⟩

/-- A gallery with a codename that its snippet gives as well, one of several words in capitals, one
without a letter in front, a link to one item and one to several, and a `system` of its own beside
an implicit one. -/
def gallery : Project where
  contentTypes := [
    { id := "t1", codename := "PHOTO gallery", name := "Photo gallery"
      elements := [
        { codename := "seo", kind := .snippet },
        { codename := "title", kind := .number },
        { codename := "1st_photo", kind := .asset },
        { codename := "cover", kind := .linkedItems, allowedTypes := [.codename "photo"]
          limit? := some { condition := .atMost, value := 1 } },
        { codename := "class", kind := .linkedItems, allowedTypes := [.id "t2"] }] },
    { id := "t2", codename := "photo", name := "Photo"
      elements := [{ codename := "system", kind := .text }] }]
  snippets := [{ codename := "seo", elements := [{ codename := "title", kind := .text }] }]

/-- All names of the gallery are valid and none is a keyword, that of the element `class` included,
and each constant is named after its property. -/
theorem gallery_names_valid :
    ∃ compiled, (gallery.compile { typedLinks := true }).result = .ok compiled ∧
      compiled.map (fun c => c.names.map Identifier.text) =
        [["PhotoGallery", "Title", "Cover", "Class", "System",
            "PhotoGalleryTyped", "Photo", "ClassPhoto"],
          ["Photo", "System"]] ∧
      compiled.map (fun c => c.model.constants) = [["title", "cover", "class"], ["system"]] ∧
      ∀ c ∈ compiled,
        (∀ name ∈ c.names, Identifier.isValid name.text ∧ name.text ∉ CSharp.keywords) ∧
        ∀ codename ∈ c.model.constants, ∃ p, c.model.property? codename = some p ∧
          CSharp.constantName c.model codename = p.identifier.text ++ "Codename" := by
  have fine : ∃ compiled ∈ (gallery.compile { typedLinks := true }).result.toOption,
      compiled.map (fun c => c.names.map Identifier.text) =
        [["PhotoGallery", "Title", "Cover", "Class", "System",
            "PhotoGalleryTyped", "Photo", "ClassPhoto"],
          ["Photo", "System"]] ∧
      compiled.map (fun c => c.model.constants) = [["title", "cover", "class"], ["system"]] := by
    decide
  obtain ⟨compiled, ran, names, constants⟩ := exists_eq_ok fine
  refine ⟨compiled, ran, names, constants, fun c mem => ?_⟩
  obtain ⟨valid, ps, same, named, -⟩ := compiled_names_valid ran c mem
  refine ⟨fun name hname => (valid name hname).2, fun codename hc => ?_⟩
  rw [← same] at hc
  obtain ⟨p, hp, rfl⟩ := List.mem_map.mp hc
  exact ⟨p, named p hp⟩

end Project

end ContentClasses
