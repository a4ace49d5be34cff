import ContentClasses.Generation
import ContentClasses.Proofs.Names
import ContentClasses.Proofs.ValidConfigs

/-!
# The names of classes

The sources of a run declare a class for each content type that is compiled, a second one where it
has typed links, and the lookup where it is asked for. Nothing compares their names.
`Project.declared_classes_distinct_iff` says for which codenames they differ.
-/

namespace ContentClasses

open CSharp (Context classSource typedClassSource typeProviderSource typeProviderName declaredTypes
  lookedUp)

/-- The namespace of a configuration that passes its check is made of letters, digits and dots. -/
lemma Config.notMem_of_validate {config : Config} (valid : config.validate = .ok ()) {c : Char}
    (other : c.isAlphanum = false) (dot : c ≠ '.') : c ∉ config.namespaceName.toList := by
  intro mem
  obtain same | alphanum := (validate_eq_ok_iff.mp valid).namespaced.eq_dot_or_isAlphanum mem
  · exact dot same
  · rw [alphanum] at other
    cases other

/-- A configuration that passes its check has a namespace on one line. -/
lemma Config.lineFeed_notMem_of_validate {config : Config} (valid : config.validate = .ok ()) :
    '\n' ∉ config.namespaceName.toList :=
  notMem_of_validate valid (by decide) (by decide)

namespace ClassModel.WellNamed
variable {model : ClassModel} {context : Context}

/-- The source of a class declares this one type. -/
lemma declaredTypes_classSource (named : model.WellNamed)
    (flat : '\n' ∉ context.namespaceName.toList) :
    declaredTypes (classSource context model) = [model.className.text] := by
  rw [declaredTypes, CSharp.declarations_classSource named.legible flat]
  simp [List.filterMap_map]

/-- The source of a class for typed links declares this one type. -/
lemma declaredTypes_typedClassSource (named : model.WellNamed)
    (flat : '\n' ∉ context.namespaceName.toList) :
    declaredTypes (typedClassSource context model) = [model.className.text] := by
  rw [declaredTypes, CSharp.declarations_typedClassSource named.legible flat]
  simp [List.filterMap_map]

end ClassModel.WellNamed

namespace CompiledContentType

/-- The name of the class of a compiled content type. -/
def className (c : CompiledContentType) : String :=
  c.model.className.text

/-- The name of the class for typed links, if there is one. -/
def typedName? (c : CompiledContentType) : Option String :=
  c.typed?.map (·.className.text)

/-- The classes of a compiled content type are well named, and the name of the one for typed links
is that of the other with an ending. -/
structure WellNamed (c : CompiledContentType) : Prop where
  model : c.model.WellNamed
  typed : ∀ typed ∈ c.typed?, typed.WellNamed
  typedName : ∀ typed ∈ c.typed?, typed.className = c.model.className.append typedEnding

/-- The name of the class for typed links is that of the other with an ending. -/
lemma WellNamed.typedName?_eq_some {c : CompiledContentType} (named : c.WellNamed) {name : String} :
    c.typedName? = some name ↔
      c.typed?.isSome ∧ (c.model.className.append typedEnding).text = name := by
  rw [typedName?]
  cases second : c.typed? with
  | none => simp
  | some typed => simp [named.typedName typed second]

end CompiledContentType

section Lookup
variable {context : Context} {compiled : List CompiledContentType}

/-- The source of the lookup declares one class and looks up the class of each content type. -/
lemma names_typeProviderSource (named : ∀ c ∈ compiled, c.WellNamed)
    (flat : '\n' ∉ context.namespaceName.toList) :
    declaredTypes (typeProviderSource context compiled) = [typeProviderName] ∧
      lookedUp (typeProviderSource context compiled) =
        compiled.map (·.className) := by
  have read := CSharp.declarations_typeProviderSource
    (fun c mem => (named c mem).model.className.isWord)
    (fun c mem => (named c mem).model.className.notMem (by decide)) flat
  constructor
  · rw [declaredTypes, read]
    simp [List.filterMap_map]
  · rw [lookedUp, read]
    simp [List.filterMap_map, CompiledContentType.className]

end Lookup

namespace Generation
variable {g : Generation} {compiled : List CompiledContentType}

/-- The classes that the sources of a run declare. -/
def declaredClasses (g : Generation) (compiled : List CompiledContentType) : List String :=
  (g.files compiled).flatMap fun file => declaredTypes file.content

/-- The files of a content type declare its classes. -/
lemma declaredTypes_filesOf {c : CompiledContentType} (named : c.WellNamed)
    (flat : '\n' ∉ g.config.namespaceName.toList) :
    (g.filesOf c).flatMap (fun file => declaredTypes file.content) =
      c.className :: c.typedName?.toList := by
  rw [filesOf, List.flatMap_cons, named.model.declaredTypes_classSource flat,
    CompiledContentType.typedName?]
  cases second : c.typed? with
  | none => rfl
  | some typed =>
    rw [Option.map_some, Option.toList_some, List.flatMap_singleton,
      (named.typed typed second).declaredTypes_typedClassSource flat]
    rfl

/-- The sources of a run declare the classes of all content types, and the lookup where it is asked
for and there is a class. -/
lemma declaredClasses_eq (named : ∀ c ∈ compiled, c.WellNamed)
    (flat : '\n' ∉ g.config.namespaceName.toList) :
    g.declaredClasses compiled =
      compiled.flatMap (fun c => c.className :: c.typedName?.toList) ++
        if g.config.withTypeProvider ∧ compiled ≠ [] then [typeProviderName] else [] := by
  cases compiled with
  | nil => simp [declaredClasses, files]
  | cons c cs =>
    have provider : (g.providerFiles (c :: cs)).flatMap (fun file => declaredTypes file.content) =
        if g.config.withTypeProvider ∧ c :: cs ≠ [] then [typeProviderName] else [] := by
      rw [providerFiles]
      by_cases asked : g.config.withTypeProvider
      · rw [if_pos asked, if_pos ⟨asked, List.cons_ne_nil c cs⟩, List.flatMap_singleton]
        exact (names_typeProviderSource named flat).1
      · rw [if_neg asked, if_neg fun both => asked both.1]
        rfl
    have nonempty : ¬ (c :: cs).isEmpty := Bool.false_ne_true
    have each : (c :: cs).flatMap (fun d => (g.filesOf d).flatMap fun file =>
        declaredTypes file.content) =
          (c :: cs).flatMap fun d => d.className :: d.typedName?.toList :=
      List.flatMap_congr fun d hd => declaredTypes_filesOf (named d hd) flat
    rw [declaredClasses, files, if_neg nonempty, List.flatMap_append, provider, List.flatMap_assoc,
      each]

end Generation

namespace Project

/-- The codenames of the content types of a project. -/
def codenames (project : Project) : List String :=
  project.contentTypes.map (·.codename)

/-- The class names of a run stay apart: no content type has that of another, that of a class for
typed links, or that of the lookup where it is asked for. -/
structure ClassesApart (project : Project) (compiled : List CompiledContentType)
    (withTypeProvider : Bool) : Prop where
  names : Identifier.Apart project.codenames
  typed : ∀ c ∈ compiled, c.typed?.isSome →
    ¬ Identifier.Given project.codenames (c.model.className.append typedEnding)
  provider : withTypeProvider → ¬ Identifier.Given project.codenames ⟨typeProviderName⟩

instance (project : Project) (compiled : List CompiledContentType) (withTypeProvider : Bool) :
    Decidable (project.ClassesApart compiled withTypeProvider) :=
  decidable_of_iff (_ ∧ _ ∧ _) ⟨fun ⟨names, typed, provider⟩ => ⟨names, typed, provider⟩,
    fun ⟨names, typed, provider⟩ => ⟨names, typed, provider⟩⟩

variable {project : Project} {options : Options} {c : CompiledContentType}
  {compiled : List CompiledContentType}

/-- Whatever comes out of a compilation is well named. -/
lemma wellNamed_of_mem (h : (project.compile options).result = .ok compiled) (mem : c ∈ compiled) :
    c.WellNamed := by
  obtain ⟨type, -, ran⟩ := exists_type_of_mem h mem
  exact ⟨wellNamed_model ran, fun typed some => wellNamed_typed ran some,
    fun typed some => (compiled_typed ran some).1.className⟩

/-- The names of the compiled classes are those that the codenames give. -/
lemma className_of_compile (h : (project.compile options).result = .ok compiled) :
    compiled.map (·.className) = Identifier.namesOf project.codenames := by
  have names := classNames_of_compile h
  calc
    compiled.map (·.className) = (compiled.map (·.model.className)).map Identifier.text :=
      List.map_map.symm
    _ = Identifier.namesOf project.codenames := by
      rw [names, Identifier.namesOf, codenames, List.filterMap_map]
      rfl

/-- A name is that of a compiled class exactly when a codename gives it. -/
lemma mem_className_iff (h : (project.compile options).result = .ok compiled) {name : Identifier} :
    name.text ∈ compiled.map (·.className) ↔ Identifier.Given project.codenames name := by
  rw [className_of_compile h, Identifier.mem_namesOf]

/-- No class for typed links has the name of the lookup. -/
lemma typedName_ne_provider {name : Identifier} :
    (name.append typedEnding).text ≠ typeProviderName := by
  intro same
  have last := congrArg (fun s : String => s.toList.getLast?) same
  simp [Identifier.append, typedEnding, typeProviderName] at last

/-- Where the classes have distinct names, those for typed links do. -/
lemma typedName_nodup (named : ∀ c ∈ compiled, c.WellNamed)
    (nodup : (compiled.map (·.className)).Nodup) :
    (compiled.filterMap (·.typedName?)).Nodup := by
  rw [List.Nodup, List.pairwise_filterMap]
  apply (List.pairwise_map.mp nodup).imp_of_mem
  intro c d hc hd different x hx y hy same
  obtain ⟨-, first⟩ := (named c hc).typedName?_eq_some.mp hx
  obtain ⟨-, second⟩ := (named d hd).typedName?_eq_some.mp hy
  apply different
  rw [← first, ← second] at same
  exact congrArg Identifier.text (Identifier.append_injective (Identifier.text_injective same))

/-- No class of a content type is called like one for typed links exactly when no content type has
such a name. -/
lemma disjoint_typedName_iff (h : (project.compile options).result = .ok compiled) :
    (compiled.map (·.className)).Disjoint (compiled.filterMap (·.typedName?)) ↔
      ∀ c ∈ compiled, c.typed?.isSome →
        ¬ Identifier.Given project.codenames (c.model.className.append typedEnding) := by
  constructor
  · intro disjoint c mem second has
    have typed := (wellNamed_of_mem h mem).typedName?_eq_some.mpr ⟨second, rfl⟩
    exact disjoint ((mem_className_iff h).mpr has) (List.mem_filterMap.mpr ⟨c, mem, typed⟩)
  · intro apart name base typed
    obtain ⟨c, mem, made⟩ := List.mem_filterMap.mp typed
    obtain ⟨second, rfl⟩ := (wellNamed_of_mem h mem).typedName?_eq_some.mp made
    exact apart c mem second ((mem_className_iff h).mp base)

/-- The classes of content types and those for typed links have distinct names exactly when the
codenames keep them apart. -/
lemma classNames_nodup_iff (h : (project.compile options).result = .ok compiled)
    (distinct : project.codenames.Nodup) :
    (compiled.flatMap fun c => c.className :: c.typedName?.toList).Nodup ↔
      Identifier.Apart project.codenames ∧ ∀ c ∈ compiled, c.typed?.isSome →
        ¬ Identifier.Given project.codenames (c.model.className.append typedEnding) := by
  -- The classes for typed links stand between the others, and repetitions do not depend on that.
  have sorted := List.map_append_flatMap_perm compiled (·.className) (·.typedName?.toList)
  rw [← sorted.nodup_iff, ← List.filterMap_eq_flatMap_toList, List.nodup_append',
    disjoint_typedName_iff h, className_of_compile h, Identifier.namesOf_nodup_iff distinct]
  constructor
  · rintro ⟨names, -, typed⟩
    exact ⟨names, typed⟩
  · rintro ⟨names, typed⟩
    have nodup : (compiled.map (·.className)).Nodup := by
      rw [className_of_compile h, Identifier.namesOf_nodup_iff distinct]
      exact names
    exact ⟨names, typedName_nodup (fun c mem => wellNamed_of_mem h mem) nodup, typed⟩

/-- No class is called like the lookup exactly when no content type has this name. -/
lemma provider_notMem_iff (h : (project.compile options).result = .ok compiled) :
    typeProviderName ∉ compiled.flatMap (fun c => c.className :: c.typedName?.toList) ↔
      ¬ Identifier.Given project.codenames ⟨typeProviderName⟩ := by
  have sorted := List.map_append_flatMap_perm compiled (·.className) (·.typedName?.toList)
  have typed : typeProviderName ∉ compiled.filterMap (·.typedName?) := by
    intro there
    obtain ⟨c, mem, made⟩ := List.mem_filterMap.mp there
    obtain ⟨-, same⟩ := (wellNamed_of_mem h mem).typedName?_eq_some.mp made
    exact typedName_ne_provider same
  rw [← sorted.mem_iff, ← List.filterMap_eq_flatMap_toList, List.mem_append,
    or_iff_left typed, ← mem_className_iff h]

/-- No class is called like the lookup that comes behind them exactly when no content type has its
name, or the lookup is not asked for. -/
lemma disjoint_provider_iff (h : (project.compile options).result = .ok compiled)
    {withTypeProvider : Bool} :
    (compiled.flatMap fun c => c.className :: c.typedName?.toList).Disjoint
        (if withTypeProvider ∧ compiled ≠ [] then [typeProviderName] else []) ↔
      (withTypeProvider → ¬ Identifier.Given project.codenames ⟨typeProviderName⟩) := by
  by_cases asked : withTypeProvider ∧ compiled ≠ []
  · rw [if_pos asked, List.disjoint_singleton, provider_notMem_iff h]
    exact ⟨fun free _ => free, fun free => free asked.1⟩
  · rw [if_neg asked]
    refine ⟨fun _ provider has => ?_, fun _ => List.disjoint_nil_right _⟩
    -- A run without a class writes no lookup, but then no content type has a class name either.
    have there := (mem_className_iff h).mpr has
    have empty : compiled = [] := by_contra fun full => asked ⟨provider, full⟩
    rw [empty] at there
    cases there

/-- In a compilation that succeeds, of a project where no codename of a content type occurs twice,
the classes that the sources of a run declare have distinct names exactly when no two codenames
give one class name, none gives that of a class for typed links, and, where the lookup is asked
for, none gives that of the lookup. The lookup has no class twice exactly when no two codenames give
one class name. The namespace is on one line, as in every configuration that passes its check. -/
theorem declared_classes_distinct_iff (h : (project.compile options).result = .ok compiled)
    (distinct : project.codenames.Nodup) {g : Generation}
    (flat : '\n' ∉ g.config.namespaceName.toList) :
    ((g.declaredClasses compiled).Nodup ↔
        project.ClassesApart compiled g.config.withTypeProvider) ∧
      ((lookedUp (typeProviderSource ⟨g.config.namespaceName, g.config.dialect⟩ compiled)).Nodup ↔
        Identifier.Apart project.codenames) := by
  have named : ∀ c ∈ compiled, c.WellNamed := fun c mem => wellNamed_of_mem h mem
  constructor
  · have alone : (if g.config.withTypeProvider ∧ compiled ≠ [] then [typeProviderName]
        else []).Nodup := by
      split
      case isTrue => exact List.nodup_singleton _
      case isFalse => exact List.nodup_nil
    rw [Generation.declaredClasses_eq named flat, List.nodup_append',
      classNames_nodup_iff h distinct, disjoint_provider_iff h]
    constructor
    · rintro ⟨⟨names, typed⟩, -, provider⟩
      exact ⟨names, typed, provider⟩
    · rintro ⟨names, typed, provider⟩
      exact ⟨⟨names, typed⟩, alone, provider⟩
  · obtain ⟨-, keys⟩ :=
      @names_typeProviderSource ⟨g.config.namespaceName, g.config.dialect⟩ _ named flat
    rw [keys, className_of_compile h, Identifier.namesOf_nodup_iff distinct]

/-- All classes that the sources of the newsroom declare have names of their own. -/
theorem newsroom_classes_distinct :
    let g : Generation :=
      ⟨{ extendedModels := true, withTypeProvider := true }, .given newsroom, true⟩
    newsroom.codenames.Nodup ∧
      ∃ compiled, (newsroom.compile { typedLinks := true }).result = .ok compiled ∧
        compiled.map (fun c => (c.className, c.typedName?)) =
          [("Article", some "ArticleTyped"), ("Writer", none)] ∧
        (g.declaredClasses compiled).Nodup ∧
        (lookedUp
          (typeProviderSource ⟨g.config.namespaceName, g.config.dialect⟩ compiled)).Nodup := by
  intro g
  have codenames : newsroom.codenames.Nodup := by decide
  have fine : ∃ compiled ∈ (newsroom.compile { typedLinks := true }).result.toOption,
      compiled.map (fun c => (c.className, c.typedName?)) =
        [("Article", some "ArticleTyped"), ("Writer", none)] ∧
      newsroom.ClassesApart compiled true := by decide
  obtain ⟨compiled, ran, names, apart⟩ := exists_eq_ok fine
  have valid :
      ({ extendedModels := true, withTypeProvider := true } : Config).validate = .ok () := by decide
  have flat : '\n' ∉ g.config.namespaceName.toList := Config.lineFeed_notMem_of_validate valid
  obtain ⟨declared, keys⟩ := declared_classes_distinct_iff ran codenames flat
  exact ⟨codenames, compiled, ran, names, declared.mpr apart, keys.mpr apart.names⟩

/-- Content types whose class names are taken: one by another content type, one by the class for the
typed links of the first, and one by the lookup. -/
def weblog : Project where
  contentTypes := [
    { id := "t1", codename := "blog_post", name := "Blog post"
      elements := [
        { codename := "related", kind := .subpages, allowedTypes := [.codename "blog_post"] }] },
    { id := "t2", codename := "blog__post", name := "Blog post" },
    { id := "t3", codename := "blog_post_typed", name := "Blog post (typed)" },
    { id := "t4", codename := "custom_type_provider", name := "Custom type provider" }]
  snippets := []

/-- The weblog has no codename twice and is compiled without a report, and its sources declare each
of its classes twice. -/
theorem weblog_classes_repeated :
    let g : Generation :=
      ⟨{ extendedModels := true, withTypeProvider := true }, .given weblog, true⟩
    weblog.codenames.Nodup ∧
      ∃ compiled, weblog.compile { typedLinks := true } = ⟨[], .ok compiled⟩ ∧
        g.declaredClasses compiled =
          ["BlogPost", "BlogPostTyped", "BlogPost", "BlogPostTyped", "CustomTypeProvider",
            "CustomTypeProvider"] ∧
        ¬ (g.declaredClasses compiled).Nodup ∧
        ¬ (lookedUp
          (typeProviderSource ⟨g.config.namespaceName, g.config.dialect⟩ compiled)).Nodup := by
  intro g
  have codenames : weblog.codenames.Nodup := by decide
  have quiet : (weblog.compile { typedLinks := true }).reported = [] := by decide
  have fine : ∃ compiled ∈ (weblog.compile { typedLinks := true }).result.toOption,
      compiled.map (·.className) =
        ["BlogPost", "BlogPost", "BlogPostTyped", "CustomTypeProvider"] ∧
      (compiled.flatMap fun c => c.className :: c.typedName?.toList) =
        ["BlogPost", "BlogPostTyped", "BlogPost", "BlogPostTyped", "CustomTypeProvider"] ∧
      compiled ≠ [] := by decide
  obtain ⟨compiled, ran, keys, classes, nonempty⟩ := exists_eq_ok fine
  have valid :
      ({ extendedModels := true, withTypeProvider := true } : Config).validate = .ok () := by decide
  have flat : '\n' ∉ g.config.namespaceName.toList := Config.lineFeed_notMem_of_validate valid
  have named : ∀ c ∈ compiled, c.WellNamed := fun c mem => wellNamed_of_mem ran mem
  have declared : g.declaredClasses compiled =
      ["BlogPost", "BlogPostTyped", "BlogPost", "BlogPostTyped", "CustomTypeProvider",
        "CustomTypeProvider"] := by
    rw [Generation.declaredClasses_eq named flat, classes, if_pos ⟨rfl, nonempty⟩]
    rfl
  refine ⟨codenames, compiled, ?_, declared, ?_, ?_⟩
  · rw [← quiet, ← ran]
  · rw [declared]
    decide
  · obtain ⟨-, read⟩ :=
      @names_typeProviderSource ⟨g.config.namespaceName, g.config.dialect⟩ _ named flat
    rw [read, keys]
    decide

end Project

end ContentClasses
