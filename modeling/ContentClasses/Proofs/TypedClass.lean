import ContentClasses.Proofs.Links
import ContentClasses.Proofs.Runs

/-!
# The class for typed links

What the second class of a content type holds: links to content types of the project that have a
class name, each under a codename of its own, and no constants. `Project.compiled_links_resolve`
says that the class of every such link comes out of the same compilation.
-/

namespace ContentClasses

/-- A property is a link to one item, or to several items, of a content type with a class name. -/
inductive Property.IsLink (types : List ContentType) (dialect : Dialect) : Property → Prop where
  | single {target : ContentType} {className : Identifier} (mem : target ∈ types)
      (named : Identifier.ofText? target.codename = some className) :
      IsLink types dialect (.ofSingleLink target className)
  | collection {element : Element} {target : ContentType} {className : Identifier} {p : Property}
      (mem : target ∈ types) (named : Identifier.ofText? target.codename = some className)
      (made : Property.ofCollectionLink element className dialect = .ok p) :
      IsLink types dialect p

/-- A link to several items has the codename and the type that its element and its class give. -/
lemma Property.ofCollectionLink_eq_ok {element : Element} {className : Identifier}
    {dialect : Dialect} {p : Property} (h : ofCollectionLink element className dialect = .ok p) :
    ∃ identifier, Identifier.ofText? (element.collectionCodename className) = some identifier ∧
      p = { codename := element.collectionCodename className, identifier
            typeName := dialect.collectionOf className.text } := by
  obtain ⟨identifier, named, made⟩ := bind_eq_ok.mp h
  cases made
  exact ⟨identifier, Identifier.ofText_eq_ok.mp named, rfl⟩

namespace Property.IsLink
variable {types : List ContentType} {dialect : Dialect} {p : Property}

/-- The identifier of a link comes from its codename. -/
lemma identifier (link : p.IsLink types dialect) :
    Identifier.ofText? p.codename = some p.identifier := by
  cases link with
  | single _ named => exact named
  | collection _ _ made =>
    obtain ⟨identifier, named, rfl⟩ := ofCollectionLink_eq_ok made
    exact named

/-- The type of a link is the class of a content type, or a collection of it. -/
lemma typeName (link : p.IsLink types dialect) :
    ∃ target ∈ types, ∃ className, Identifier.ofText? target.codename = some className ∧
      (p.typeName = className.text ∨ p.typeName = dialect.collectionOf className.text) := by
  cases link with
  | single mem named => exact ⟨_, mem, _, named, .inl rfl⟩
  | collection mem named made =>
    obtain ⟨identifier, -, rfl⟩ := ofCollectionLink_eq_ok made
    exact ⟨_, mem, _, named, .inr rfl⟩

end Property.IsLink

namespace Element
variable {e : Element} {types : List ContentType} {options : Options} {p : Property}

/-- Every allowed type that is resolved is a content type of the schema. -/
lemma mem_of_resolveAllowed {targets : List ContentType}
    (h : e.resolveAllowed types = .ok targets) : ∀ target ∈ targets, target ∈ types := by
  intro target mem
  have row := mapM_eq_ok.mp h
  obtain ⟨i, hi, rfl⟩ := List.mem_iff_getElem.mp mem
  have found := row.get (row.length_eq ▸ hi) hi
  rw [List.get_eq_getElem, resolve] at found
  split at found
  case h_1 type first =>
    cases found
    exact List.mem_of_find?_eq_some first
  case h_2 => cases found

/-- What is made for a link to a content type of the schema is a property for a link. -/
lemma isLink_of_linkTo {target : ContentType} {dialect : Dialect} (mem : target ∈ types)
    (h : e.linkTo target dialect = .ok p) : p.IsLink types dialect := by
  obtain ⟨className, named, made⟩ := bind_eq_ok.mp h
  have named := Identifier.ofText_eq_ok.mp named
  split at made
  case isTrue =>
    cases made
    exact .single mem named
  case isFalse => exact .collection mem named made

/-- An element with a typed property links content items of the one content type that it allows. -/
lemma typedLink_eq_some (h : e.typedLink types options = .ok (some p)) :
    e.kind.isItemReference ∧
      ∃ target, e.resolveAllowed types = .ok [target] ∧
        e.linkTo target options.dialect = .ok p := by
  unfold typedLink at h
  split at h
  case isTrue => cases h
  case isFalse links =>
    split at h
    case isTrue => cases h
    split at h
    case isTrue => cases h
    rw [Bool.not_eq_true', Bool.not_eq_false] at links
    obtain ⟨targets, allowed, link⟩ := bind_eq_ok.mp h
    split at link
    case h_1 target =>
      refine ⟨links, target, allowed, ?_⟩
      cases linked : e.linkTo target options.dialect with
      | error err =>
        rw [linked] at link
        cases link
      | ok made =>
        rw [linked] at link
        cases link
        rfl
    case h_2 => cases link

/-- The typed property of an element is a link. -/
lemma isLink_of_typedLink (h : e.typedLink types options = .ok (some p)) :
    p.IsLink types options.dialect := by
  obtain ⟨-, target, allowed, linked⟩ := typedLink_eq_some h
  exact isLink_of_linkTo (mem_of_resolveAllowed allowed target List.mem_cons_self) linked

end Element

lemma Classes.toCompiled_typed? {classes : Classes} :
    classes.toCompiled.typed? = if classes.typed.isEmpty then none else some classes.typed :=
  rfl

namespace Project

/-- A class is the second class of a content type with that codename and class name: it holds links
to content types of the project under codenames that differ, and nothing else. -/
structure HoldsLinks (project : Project) (options : Options) (codename : String)
    (className : Identifier) (typed : ClassModel) : Prop where
  sourceCodename : typed.sourceCodename = codename
  className : typed.className = className.append typedEnding
  constants : typed.constants = []
  links : ∀ p ∈ typed.properties, p.IsLink project.contentTypes options.dialect
  distinct : (typed.properties.map (·.codename)).Nodup

variable {project : Project} {options : Options} {codename : String} {className : Identifier}
  {classes grown : Classes} {front : List Element} {e : Element} {p : Property}
  {typed : ClassModel} {type : ContentType} {c : CompiledContentType}
  {compiled : List CompiledContentType}

lemma holdsLinks_ofClassName :
    project.HoldsLinks options codename className
      (Classes.ofClassName codename className).typed where
  sourceCodename := rfl
  className := rfl
  constants := rfl
  links := nofun
  distinct := List.nodup_nil

/-- A class goes on to hold links where one more is offered. -/
lemma HoldsLinks.offer (holds : project.HoldsLinks options codename className typed)
    (link : p.IsLink project.contentTypes options.dialect) {name : String}
    {answer : ClassModel × Bool} (h : (typed.offer p false name).result = .ok answer) :
    project.HoldsLinks options codename className answer.1 := by
  -- An offer is added, replaces a property of its codename, or is refused.
  obtain ⟨free, added⟩ | replaced | same := ClassModel.offer_cases h
  · rw [added]
    refine ⟨holds.sourceCodename, holds.className, holds.constants, ?_, ?_⟩
    · intro q hq
      obtain before | new := List.mem_append.mp hq
      · exact holds.links q before
      · rw [List.mem_singleton.mp new]
        exact link
    · rw [List.map_append, List.map_singleton, List.nodup_append']
      refine ⟨holds.distinct, List.nodup_singleton _, ?_⟩
      intro c hc new
      rw [List.mem_singleton.mp new] at hc
      exact free hc
  · rw [replaced]
    refine ⟨holds.sourceCodename, holds.className, holds.constants, ?_, ?_⟩
    · intro q hq
      obtain rfl | before := ClassModel.mem_replaceFirst hq
      · exact link
      · exact holds.links q before
    · rw [ClassModel.replaceFirst_codename]
      exact holds.distinct
  · rw [same]
    exact holds

/-- A link that is added leaves nothing but links in the typed class. -/
lemma HoldsLinks.addTypedLink
    (holds : project.HoldsLinks options codename className classes.typed)
    (h : (project.addTypedLink options classes e).result = .ok grown) :
    project.HoldsLinks options codename className grown.typed := by
  unfold Project.addTypedLink at h
  cases link : e.typedLink project.contentTypes options with
  | ok p? =>
    cases p? with
    | none =>
      rw [link] at h
      cases h
      exact holds
    | some p =>
      obtain ⟨answer, offered⟩ := classes.typed.offer_result p classes.base.className.text
      simp only [link, Reporting.bind_of_ok offered] at h
      cases h
      exact holds.offer (Element.isLink_of_typedLink link) offered
  | error err =>
    rw [link] at h
    cases err <;> cases h
    exact holds

/-- An element that is added leaves nothing but links in the typed class. -/
lemma HoldsLinks.addElement (base : classes.base = options.classModel codename className front)
    (holds : project.HoldsLinks options codename className classes.typed)
    (h : (project.addElement options classes e).result = .ok grown) :
    project.HoldsLinks options codename className grown.typed := by
  cases skip : options.skip? codename className front e with
  | some d =>
    rw [addElement_of_skip base skip] at h
    cases h
    exact holds
  | none =>
    rw [addElement_of_new base skip] at h
    split at h
    case isTrue =>
      refine HoldsLinks.addTypedLink ?_ h
      exact holds
    case isFalse =>
      cases h
      exact holds

/-- A row of elements adds nothing but links to the second class. -/
lemma HoldsLinks.foldlM_addElement {es : List Element}
    (base : classes.base = options.classModel codename className front)
    (holds : project.HoldsLinks options codename className classes.typed)
    (h : (es.foldlM (project.addElement options) classes).result = .ok grown) :
    project.HoldsLinks options codename className grown.typed := by
  induction es generalizing front classes with
  | nil =>
    cases h
    exact holds
  | cons e es ih =>
    rw [List.foldlM_cons] at h
    obtain ⟨next, step, rest⟩ := Reporting.result_bind_eq_ok.mp h
    exact ih (addElement_base base step) (holds.addElement base step) rest

lemma addSystem_typed : (addSystem options classes).typed = classes.typed := by
  unfold addSystem
  split <;> rfl

/-- The second class of a content type that is compiled holds links, and there is one only where it
holds some. -/
lemma compiled_typed (h : (project.compileContentType options type).result = .ok (some c))
    (some : c.typed? = some typed) :
    project.HoldsLinks options type.codename c.model.className typed ∧ typed.properties ≠ [] := by
  obtain ⟨className, classes, named, complete, row, rfl⟩ := compileContentType_eq_some h
  have holds := holdsLinks_ofClassName.foldlM_addElement Classes.ofClassName_base row
  rw [Classes.toCompiled_model, addSystem_base (reached_base row)]
  rw [Classes.toCompiled_typed?, addSystem_typed] at some
  split at some
  case isTrue => cases some
  case isFalse full =>
    cases some
    refine ⟨holds, fun empty => full ?_⟩
    rw [ClassModel.isEmpty, empty]
    rfl

/-- In a compilation that succeeds, the type of every property of every second class is the class
of a content type that the same compilation gives, or a collection of it. -/
theorem compiled_links_resolve (h : (project.compile options).result = .ok compiled) :
    ∀ c ∈ compiled, ∀ typed, c.typed? = some typed → ∀ p ∈ typed.properties,
      ∃ target ∈ compiled,
        p.typeName = target.model.className.text ∨
          p.typeName = "IEnumerable<" ++ target.model.className.text ++ ">" := by
  intro c mem typed some p hp
  obtain ⟨type, -, ran⟩ := exists_type_of_mem h mem
  obtain ⟨holds, -⟩ := compiled_typed ran some
  obtain ⟨target, there, className, named, typeName⟩ := (holds.links p hp).typeName
  obtain ⟨result, given, same⟩ := exists_compiled_of_named h there named
  refine ⟨result, given, ?_⟩
  rw [same]
  exact typeName

/-- A project whose article links to a writer, to other articles, and to a content type without a
class name. The writer stands behind the article, and shares its id with that content type. -/
def newsroom : Project where
  contentTypes := [
    { id := "t1", codename := "article", name := "Article"
      elements := [
        { codename := "author", kind := .linkedItems, allowedTypes := [.id "t2"]
          limit? := some { condition := .exactly, value := 1 } },
        { codename := "related", kind := .subpages, allowedTypes := [.codename "article"] },
        { codename := "lost", kind := .linkedItems, allowedTypes := [.codename "$^123"] }] },
    { id := "t2", codename := "writer", name := "Writer" },
    { id := "t2", codename := "$^123", name := "Broken" }]
  snippets := []

/-- The article has a link to a writer and one to articles, and both are classes of the newsroom. -/
theorem newsroom_links_resolve :
    ∃ compiled typed, (newsroom.compile { typedLinks := true }).result = .ok compiled ∧
      compiled.map (·.typed?) = [some typed, none] ∧
      typed.properties.map (fun p => (p.codename, p.typeName)) =
        [("writer", "Writer"), ("related_Article", "IEnumerable<Article>")] ∧
      ∀ p ∈ typed.properties, ∃ target ∈ compiled,
        p.typeName = target.model.className.text ∨
          p.typeName = "IEnumerable<" ++ target.model.className.text ++ ">" := by
  let typed : ClassModel := {
    sourceCodename := "article"
    className := ⟨"ArticleTyped"⟩
    properties := [
      { codename := "writer", identifier := ⟨"Writer"⟩, typeName := "Writer" },
      { codename := "related_Article", identifier := ⟨"RelatedArticle"⟩
        typeName := "IEnumerable<Article>" }] }
  have fine : ∃ compiled ∈ (newsroom.compile { typedLinks := true }).result.toOption,
      compiled.map (·.typed?) = [some typed, none] := by decide
  obtain ⟨compiled, ran, second⟩ := exists_eq_ok fine
  refine ⟨compiled, typed, ran, second, rfl, ?_⟩
  have there : some typed ∈ compiled.map (·.typed?) := by
    rw [second]
    exact List.mem_cons_self
  obtain ⟨c, mem, some⟩ := List.mem_map.mp there
  exact compiled_links_resolve ran c mem typed some

end Project

end ContentClasses
