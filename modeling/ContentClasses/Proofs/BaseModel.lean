import ContentClasses.Proofs.Expansion
import ContentClasses.Proofs.Steps

/-!
# The base class of a content type

What a content type is compiled to, by the elements that it has once its snippets are expanded.
`Project.compiled_base_model` says what is in the base class: a property for the first of each
codename, where the last `system` stands in the place of the first, and the implicit `system`
behind them.
-/

namespace ContentClasses

/-- The properties that a class has without an element: that with the attributes of an item, in
the dialect that has one and where no element gives one of its codename. -/
def Options.implicitProperties (options : Options) (elements : List Element) : List Property :=
  match options.dialect.systemType? with
  | some typeName =>
    if (options.candidates elements).any (·.isSystem) then [] else [Property.system typeName]
  | none => []

lemma Classes.toCompiled_model {classes : Classes} : classes.toCompiled.model = classes.base :=
  rfl

namespace Project
variable {project : Project} {options : Options} {type : ContentType} {className : Identifier}
  {classes : Classes} {elements : List Element} {compiled : CompiledContentType}

/-- A content type whose codename gives no identifier is skipped, which is reported. -/
lemma compileContentType_of_unnamed (unnamed : Identifier.ofText? type.codename = none) :
    project.compileContentType options type =
      ⟨[.skippedContentType type.codename], .ok none⟩ := by
  simp only [compileContentType, Identifier.ofText, unnamed]
  rfl

/-- A content type with an identifier is compiled from its concrete elements, one after the
other. -/
lemma compileContentType_of_named (named : Identifier.ofText? type.codename = some className) :
    project.compileContentType options type = (do
      let elements ← Reporting.ofExcept (type.concreteElements project.snippets)
      let classes ← elements.foldlM (project.addElement options)
        (Classes.ofClassName type.codename className)
      return some (addSystem options classes).toCompiled) := by
  simp only [compileContentType, Identifier.ofText, named]

/-- A missing snippet ends the compilation of a content type before any of its elements. -/
lemma compileContentType_of_lacks (named : Identifier.ofText? type.codename = some className)
    {front back : List Element} {e : Element} (split : type.elements = front ++ e :: back)
    (complete : ∀ b ∈ front, ¬ b.LacksSnippet project.snippets)
    (lacks : e.LacksSnippet project.snippets) :
    project.compileContentType options type = ⟨[], .error (.missingSnippet e.codename)⟩ := by
  simp only [compileContentType, Identifier.ofText, named,
    ContentType.concreteElements_of_lacks split complete lacks]
  rfl

/-- A content type with a class name and all its snippets is what its elements make of it. -/
lemma compileContentType_of_complete (named : Identifier.ofText? type.codename = some className)
    (complete : ∀ e ∈ type.elements, ¬ e.LacksSnippet project.snippets) :
    project.compileContentType options type =
      ((type.expanded project.snippets).foldlM (project.addElement options)
        (Classes.ofClassName type.codename className) >>= fun classes =>
          pure (some (addSystem options classes).toCompiled)) := by
  simp only [compileContentType, Identifier.ofText, named,
    ContentType.concreteElements_of_complete complete]
  rfl

/-- Where a content type is compiled, all its snippets are there. -/
lemma complete_of_ok (named : Identifier.ofText? type.codename = some className)
    {c? : Option CompiledContentType}
    (h : (project.compileContentType options type).result = .ok c?) :
    ∀ e ∈ type.elements, ¬ e.LacksSnippet project.snippets := by
  simp only [compileContentType, Identifier.ofText, named] at h
  obtain ⟨elements, expansion, -⟩ := Reporting.result_bind_eq_ok.mp h
  exact (ContentType.concreteElements_eq_ok.mp expansion).1

/-- A content type that is compiled has a class name and all its snippets, and its elements are
added without a failure. -/
lemma compileContentType_eq_some
    (h : (project.compileContentType options type).result = .ok (some compiled)) :
    ∃ className classes, Identifier.ofText? type.codename = some className ∧
      (∀ e ∈ type.elements, ¬ e.LacksSnippet project.snippets) ∧
      ((type.expanded project.snippets).foldlM (project.addElement options)
        (Classes.ofClassName type.codename className)).result = .ok classes ∧
      compiled = (addSystem options classes).toCompiled := by
  cases named : Identifier.ofText? type.codename with
  | none =>
    rw [compileContentType_of_unnamed named] at h
    cases h
  | some className =>
    have complete := complete_of_ok named h
    rw [compileContentType_of_complete named complete] at h
    obtain ⟨classes, row, made⟩ := Reporting.result_bind_eq_ok.mp h
    cases made
    exact ⟨className, classes, rfl, complete, row, rfl⟩

/-- The implicit property is put behind those of the elements, where it belongs. -/
lemma addSystem_base {codename : String}
    (base : classes.base = options.classModel codename className elements) :
    (addSystem options classes).base =
      { options.classModel codename className elements with
        properties := (options.classModel codename className elements).properties ++
          options.implicitProperties elements } := by
  unfold addSystem Options.implicitProperties
  cases options.dialect.systemType? with
  | none => rw [base, List.append_nil]
  | some typeName =>
    have present : ((options.classModel codename className elements).property?
        Property.systemCodename).isNone ↔ ¬ (options.candidates elements).any (·.isSystem) := by
      rw [ClassModel.property?_isNone, Options.classModel_constants,
        Options.mem_classModel_constants, List.any_eq_true, List.mem_map]
      simp only [Property.isSystem, beq_iff_eq]
    show classes.base.addSystemIfAbsent typeName = _
    rw [base, ClassModel.addSystemIfAbsent]
    by_cases there : (options.candidates elements).any (·.isSystem)
    · rw [if_neg (fun absent => present.mp absent there)]
      simp only [there, if_true, List.append_nil]
    · rw [if_pos (present.mpr there)]
      simp only [there, Bool.false_eq_true, if_false]

/-- The base class of a content type that is compiled is the one that its elements give, with
implicit properties behind. -/
lemma model_of_compiled
    (h : (project.compileContentType options type).result = .ok (some compiled)) :
    let elements := type.expanded project.snippets
    (∀ e ∈ type.elements, ¬ e.LacksSnippet project.snippets) ∧
      Identifier.ofText? type.codename = some compiled.model.className ∧
      let own := options.classModel type.codename compiled.model.className elements
      compiled.model =
        { own with properties := own.properties ++ options.implicitProperties elements } := by
  obtain ⟨className, classes, named, complete, row, rfl⟩ := compileContentType_eq_some h
  intro elements
  rw [Classes.toCompiled_model, addSystem_base (reached_base row)]
  exact ⟨complete, named, rfl⟩

/-- The base class of a content type that is compiled holds the first property of each codename
among those that its elements give, in order and with a constant for each. The property `system`
is the last one that they give, in the place of the first, and implicit properties come behind. -/
theorem compiled_base_model
    (h : (project.compileContentType options type).result = .ok (some compiled)) :
    let elements := type.expanded project.snippets
    let kept := options.candidates elements
    let first := Property.firstOfEach kept
    (∀ e ∈ type.elements, ¬ e.LacksSnippet project.snippets) ∧
      compiled.model.sourceCodename = type.codename ∧
      Identifier.ofText? type.codename = some compiled.model.className ∧
      compiled.model.constants = first.map (·.codename) ∧
      compiled.model.properties =
        first.map (Property.latest kept) ++ options.implicitProperties elements := by
  obtain ⟨complete, named, model⟩ := model_of_compiled h
  intro elements kept first
  rw [model] at named ⊢
  exact ⟨complete, rfl, named, rfl, rfl⟩

/-- A content type whose snippet brings a `system` that an element of its own follows, with a
codename given twice, a kind that is not known and a codename without letters. -/
def article : ContentType where
  id := "t1"
  codename := "article"
  name := "Article"
  elements := [
    { codename := "title", kind := .text, id? := some "e1" },
    { codename := "seo", kind := .snippet },
    { codename := "intro", kind := .guidelines },
    { codename := "--", kind := .text },
    { codename := "hero", kind := .unknown "hologram" },
    { codename := "title", kind := .number },
    { codename := "system", kind := .number, id? := some "e7" }]

/-- A project with the snippet that the content type refers to. -/
def magazine : Project where
  contentTypes := [article]
  snippets := [
    { codename := "seo"
      elements := [
        { codename := "system", kind := .text, id? := some "e8" },
        { codename := "hint", kind := .guidelines },
        { codename := "keywords", kind := .taxonomy }] }]

/-- The number of the element stands in the place of the text that the snippet brought. -/
theorem article_base_model :
    ∃ compiled, (magazine.compileContentType {} article).result = .ok (some compiled) ∧
      compiled.model.constants = ["title", "system", "keywords"] ∧
      compiled.model.properties.map (fun p => (p.codename, p.typeName, p.id?)) =
        [("title", "string", some "e1"), ("system", "decimal?", some "e7"),
          ("keywords", "IEnumerable<ITaxonomyTerm>", none)] := by
  have ran : (magazine.compileContentType {} article).result = .ok (some {
      model := {
        sourceCodename := "article"
        className := ⟨"Article"⟩
        properties := [
          { codename := "title", identifier := ⟨"Title"⟩, typeName := "string", id? := some "e1" },
          { codename := "system", identifier := ⟨"System"⟩, typeName := "decimal?"
            id? := some "e7" },
          { codename := "keywords", identifier := ⟨"Keywords"⟩
            typeName := "IEnumerable<ITaxonomyTerm>" }]
        constants := ["title", "system", "keywords"] }
      typed? := none }) := by rfl
  obtain ⟨-, -, -, constants, properties⟩ := compiled_base_model ran
  refine ⟨_, ran, constants.trans ?_, ?_⟩
  · decide
  · rw [properties]
    decide

end Project

end ContentClasses
