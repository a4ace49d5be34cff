import ContentClasses.Proofs.Diagnostics
import ContentClasses.Proofs.TypedClass

/-!
# Compilations with and without typed links

Typed links add classes to a compilation and change nothing else. What the compilation reports is a
list of entries, some of which come from adding a typed link to the second class of a content type.
`Project.compile_without_links` says that the compilation without typed links gives the same base
classes and reports the entries that do not.
-/

namespace ContentClasses

/-- A property for a link has no ids. -/
lemma Property.IsLink.ids {types : List ContentType} {dialect : Dialect} {p : Property}
    (link : p.IsLink types dialect) : p.id? = none ∧ p.externalId? = none := by
  cases link with
  | single => exact ⟨rfl, rfl⟩
  | collection _ _ made =>
    obtain ⟨identifier, -, rfl⟩ := Property.ofCollectionLink_eq_ok made
    exact ⟨rfl, rfl⟩

/-- An element has no typed link where the compilation does not look for one. -/
lemma Element.typedLink_of_unlooked {e : Element} {types : List ContentType} {options : Options}
    (unlooked : ¬ (options.typedLinks && e.kind.isItemReference) = true) :
    ∃ err, e.typedLink types options = .error err := by
  unfold typedLink
  split
  case isTrue => exact ⟨_, rfl⟩
  case isFalse links =>
    split
    case isTrue => exact ⟨_, rfl⟩
    case isFalse =>
      split
      case isTrue => exact ⟨_, rfl⟩
      case isFalse on =>
        rw [Bool.not_eq_true', Bool.not_eq_false] at links on
        exact absurd (Bool.and_eq_true_iff.mpr ⟨on, links⟩) unlooked

/-- A class that has settled on some properties settles on one more when that is offered to it. -/
lemma ClassModel.offer_settled (model : ClassModel) (p : Property) (className : String)
    {ps : List Property} (settled : model.properties = Property.settled ps) :
    ∃ isAdded, (model.offer p false className).result =
      .ok ({ model with properties := Property.settled (ps ++ [p]) }, isAdded) := by
  have codenames :
      model.properties.map (·.codename) = (Property.firstOfEach ps).map (·.codename) := by
    rw [settled, Property.settled_codename]
  have mem : p.codename ∈ model.properties.map (·.codename) ↔
      p.codename ∈ ps.map (·.codename) := by
    rw [codenames, Property.mem_firstOfEach_codename]
  -- The typed class takes the offer as `settled` takes one more property.
  by_cases taken : p.codename ∈ ps.map (·.codename)
  · have there := mem.mpr taken
    by_cases system : p.isSystem
    · have nodup : (model.properties.map (·.codename)).Nodup :=
        codenames ▸ Property.nodup_firstOfEach ps
      refine ⟨true, ?_⟩
      rw [offer, addProperty_of_system there system, Property.settled_append_of_system taken system,
        ← settled, ← replaceFirst_eq_map nodup]
      rfl
    · refine ⟨false, ?_⟩
      rw [offer, addProperty_of_taken there system, Property.settled_append_of_taken taken system,
        ← settled]
      rfl
  · refine ⟨true, ?_⟩
    rw [offer, addProperty_of_free (taken ∘ mem.mp), Property.settled_append_of_free taken,
      ← settled]
    rfl

/-- What is reported of an offer is one duplicate. -/
lemma ClassModel.eq_of_mem_offer {model : ClassModel} {p : Property} {className : String}
    {d : Diagnostic} (mem : d ∈ (model.offer p false className).reported) :
    d = .duplicateElement className p.codename := by
  by_cases taken : p.codename ∈ model.properties.map (·.codename)
  · by_cases system : p.isSystem
    · rw [offer, addProperty_of_system taken system] at mem
      cases mem
    · rw [offer, addProperty_of_taken taken system] at mem
      exact List.mem_singleton.mp mem
  · rw [offer, addProperty_of_free taken] at mem
    cases mem

/-- An entry in the report of a compilation: a diagnostic, and whether it comes from adding a typed
link to the second class of a content type. -/
structure Entry where
  diagnostic : Diagnostic
  isLink : Bool

namespace Project

section
variable (project : Project) (options : Options)

/-- The typed link of an element, if there is one and its class can be named. -/
def link? (e : Element) : Option Property :=
  (e.typedLink project.contentTypes options).toOption.join

variable (codename : String) (className : Identifier)

/-- The typed link that an element adds behind the elements in front of it: its own, unless the
element is left out. -/
def newLink? (front : List Element) (e : Element) : Option Property :=
  match options.skip? codename className front e with
  | some _ => none
  | none => project.link? options e

/-- The typed links that a row of elements adds behind the elements in front of it. -/
def links (front : List Element) : List Element → List Property
  | [] => []
  | e :: es =>
    (project.newLink? options codename className front e).toList ++ links (front ++ [e]) es

/-- The second class of a content type once elements are added to it. -/
def typedModel (elements : List Element) : ClassModel where
  sourceCodename := codename
  className := className.append typedEnding
  properties := Property.settled (project.links options codename className [] elements)

/-- The entries of an element behind those in front of it: the diagnostic with which it is left out,
or those with which the second class answers to its typed link. -/
def elementEntries (front : List Element) (e : Element) : List Entry :=
  (options.skip? codename className front e).toList.map (⟨·, false⟩) ++
    (project.newLink? options codename className front e).toList.flatMap fun p =>
      ((project.typedModel options codename className front).offer p false
        className.text).reported.map (⟨·, true⟩)

/-- The entries of a row of elements behind the elements in front of it. -/
def rowEntries (front : List Element) : List Element → List Entry
  | [] => []
  | e :: es => project.elementEntries options codename className front e ++
      rowEntries (front ++ [e]) es

/-- The entries of a content type: one for itself where it has no class name, and those of its
elements otherwise. -/
def typeEntries (type : ContentType) : List Entry :=
  match Identifier.ofText? type.codename with
  | none => [⟨.skippedContentType type.codename, false⟩]
  | some className =>
    project.rowEntries options type.codename className [] (type.expanded project.snippets)

/-- The entries of a compilation. -/
def entries : List Entry :=
  project.contentTypes.flatMap (project.typeEntries options)

end

variable {project : Project} {options : Options} {codename : String} {className : Identifier}
  {classes grown : Classes} {front es : List Element} {e : Element} {p : Property}
  {type : ContentType}

lemma newLink?_of_skip {d : Diagnostic} (skip : options.skip? codename className front e = some d) :
    project.newLink? options codename className front e = none := by
  rw [newLink?, skip]

lemma newLink?_of_new (new : options.skip? codename className front e = none) :
    project.newLink? options codename className front e = project.link? options e := by
  rw [newLink?, new]

/-- The links come element by element, each told from those in front of it. -/
lemma links_append (front es back : List Element) :
    project.links options codename className front (es ++ back) =
      project.links options codename className front es ++
        project.links options codename className (front ++ es) back := by
  induction es generalizing front with
  | nil => rw [List.nil_append, links, List.nil_append, List.append_nil]
  | cons e es ih =>
    rw [List.cons_append, links, links, ih, List.append_assoc, List.append_assoc,
      List.singleton_append]

lemma typedModel_append_of_none
    (absent : project.newLink? options codename className front e = none) :
    project.typedModel options codename className (front ++ [e]) =
      project.typedModel options codename className front := by
  rw [typedModel, links_append, links, links, List.append_nil, List.nil_append, absent,
    Option.toList_none, List.append_nil, typedModel]

/-- A new link puts its property at the end of the typed class. -/
lemma typedModel_append_of_some
    (given : project.newLink? options codename className front e = some p) :
    project.typedModel options codename className (front ++ [e]) =
      { project.typedModel options codename className front with
        properties :=
          Property.settled (project.links options codename className [] front ++ [p]) } := by
  rw [typedModel, links_append, links, links, List.append_nil, List.nil_append, given,
    Option.toList_some, typedModel]

/-- Where an element has no typed link, nothing is added unless that is an error. -/
lemma addTypedLink_of_none (absent : project.link? options e = none)
    (h : (project.addTypedLink options classes e).result = .ok grown) :
    project.addTypedLink options classes e = ⟨[], .ok classes⟩ := by
  unfold addTypedLink at h ⊢
  unfold link? at absent
  cases link : e.typedLink project.contentTypes options with
  | ok p? =>
    rw [link] at absent
    cases p? with
    | none => rfl
    | some p => cases absent
  | error err =>
    rw [link] at h
    cases err <;> cases h
    rfl

/-- An element with a link offers its property to the typed class. -/
lemma addTypedLink_of_some (given : project.link? options e = some p) :
    project.addTypedLink options classes e =
      classes.typed.offer p false classes.base.className.text >>= fun answer =>
        pure { classes with typed := answer.1 } := by
  unfold addTypedLink
  unfold link? at given
  cases link : e.typedLink project.contentTypes options with
  | ok p? =>
    rw [link] at given
    cases given
    rfl
  | error err =>
    rw [link] at given
    cases given

/-- An element that is not left out adds its property, and its typed link if there is one. -/
lemma addElement_of_link (base : classes.base = options.classModel codename className front)
    (new : options.skip? codename className front e = none)
    (given : project.link? options e = some p) :
    project.addElement options classes e =
      classes.typed.offer p false className.text >>= fun answer =>
        pure ⟨options.classModel codename className (front ++ [e]), answer.1⟩ := by
  rw [addElement_of_new base new]
  split
  case isTrue => exact addTypedLink_of_some given
  case isFalse unlooked =>
    obtain ⟨err, failed⟩ : ∃ err, e.typedLink project.contentTypes options = .error err :=
      Element.typedLink_of_unlooked unlooked
    rw [link?, failed] at given
    cases given

/-- Any other element that is not left out adds its property alone, unless it fails. -/
lemma addElement_of_no_link (base : classes.base = options.classModel codename className front)
    (new : options.skip? codename className front e = none)
    (absent : project.link? options e = none)
    (h : (project.addElement options classes e).result = .ok grown) :
    project.addElement options classes e =
      ⟨[], .ok { classes with base := options.classModel codename className (front ++ [e]) }⟩ := by
  rw [addElement_of_new base new] at h ⊢
  split at h
  case isTrue looked =>
    rw [if_pos looked]
    exact addTypedLink_of_none absent h
  case isFalse unlooked =>
    rw [if_neg unlooked]
    rfl

/-- From the classes that the elements in front give, one more element that does not fail takes the
compilation to those with it, and reports its entries. -/
lemma addElement_entries
    (h : (project.addElement options ⟨options.classModel codename className front,
      project.typedModel options codename className front⟩ e).result = .ok grown) :
    project.addElement options ⟨options.classModel codename className front,
        project.typedModel options codename className front⟩ e =
      ⟨(project.elementEntries options codename className front e).map (·.diagnostic),
        .ok ⟨options.classModel codename className (front ++ [e]),
          project.typedModel options codename className (front ++ [e])⟩⟩ := by
  cases skip : options.skip? codename className front e with
  | some d =>
    have absent : project.newLink? options codename className front e = none :=
      newLink?_of_skip skip
    rw [addElement_of_skip rfl skip, typedModel_append_of_none absent, elementEntries, skip, absent]
    rfl
  | none =>
    have own : project.newLink? options codename className front e = project.link? options e :=
      newLink?_of_new skip
    cases link : project.link? options e with
    | none =>
      -- A link whose class cannot be named is dropped, and `h` excludes every other error.
      rw [addElement_of_no_link rfl skip link h, typedModel_append_of_none (own.trans link),
        elementEntries, skip, own, link]
      rfl
    | some p =>
      obtain ⟨isAdded, offered⟩ :=
        (project.typedModel options codename className front).offer_settled p className.text rfl
      rw [addElement_of_link rfl skip link, Reporting.bind_of_ok offered,
        typedModel_append_of_some (own.trans link), elementEntries, skip, own, link]
      simp [Function.comp_def]

/-- Elements that are added one after the other report their entries and give the two classes of all
elements seen so far. -/
lemma foldlM_addElement_entries
    (h : (es.foldlM (project.addElement options) ⟨options.classModel codename className front,
      project.typedModel options codename className front⟩).result = .ok grown) :
    es.foldlM (project.addElement options) ⟨options.classModel codename className front,
        project.typedModel options codename className front⟩ =
      ⟨(project.rowEntries options codename className front es).map (·.diagnostic),
        .ok ⟨options.classModel codename className (front ++ es),
          project.typedModel options codename className (front ++ es)⟩⟩ := by
  -- The classes are always those that the front gives, and each element joins the front.
  induction es generalizing front with
  | nil =>
    rw [List.append_nil]
    rfl
  | cons e es ih =>
    rw [List.foldlM_cons] at h ⊢
    obtain ⟨next, step, rest⟩ := Reporting.result_bind_eq_ok.mp h
    have added := addElement_entries step
    rw [added] at step
    cases step
    rw [added, Reporting.ok_bind, ih rest, rowEntries, List.map_append, List.append_assoc,
      List.singleton_append]

lemma ofClassName_eq (project : Project) (options : Options) :
    Classes.ofClassName codename className =
      ⟨options.classModel codename className [],
        project.typedModel options codename className []⟩ :=
  rfl

/-- The second class that is reached by adding elements to empty classes is the one that these
elements give. -/
lemma reached_typed
    (reached : (front.foldlM (project.addElement options)
      (Classes.ofClassName codename className)).result = .ok classes) :
    classes.typed = project.typedModel options codename className front := by
  rw [ofClassName_eq project options] at reached
  rw [foldlM_addElement_entries reached] at reached
  cases reached
  rfl

/-- The entries of an element that are not of its typed link are those of leaving it out. -/
lemma elementEntries_filter :
    ((project.elementEntries options codename className front e).filter (!·.isLink)).map
      (·.diagnostic) = (options.skip? codename className front e).toList := by
  have links : ∀ ds : List Diagnostic, (ds.map (Entry.mk · true)).filter (!·.isLink) = [] := by
    intro ds
    simp
  have others : ∀ ds : List Diagnostic,
      ((ds.map (Entry.mk · false)).filter (!·.isLink)).map (·.diagnostic) = ds := by
    intro ds
    simp [List.filter_map, Function.comp_def]
  rw [elementEntries, List.filter_append, List.map_append, others]
  cases project.newLink? options codename className front e with
  | none => simp
  | some p => simp [links]

/-- The entries of a row that are not of typed links are those of leaving its elements out, which
are the same where links are not typed. -/
lemma rowEntries_filter :
    ((project.rowEntries options codename className front es).filter (!·.isLink)).map
      (·.diagnostic) =
        Options.skips { options with typedLinks := false } codename className front es := by
  induction es generalizing front with
  | nil => rfl
  | cons e es ih =>
    rw [rowEntries, List.filter_append, List.map_append, elementEntries_filter, ih]
    rfl

/-- Without the entries of links the report of a content type is that of a compilation without typed
links. -/
lemma typeEntries_filter :
    ((project.typeEntries options type).filter (!·.isLink)).map (·.diagnostic) =
      Options.typeDiagnostics { options with typedLinks := false } project.snippets type := by
  rw [typeEntries, Options.typeDiagnostics]
  cases Identifier.ofText? type.codename with
  | none => rfl
  | some className => exact rowEntries_filter

/-- The entries of a typed link are about the class of the content type. -/
lemma diagnostic_of_isLink {entry : Entry}
    (mem : entry ∈ project.elementEntries options codename className front e)
    (isLink : entry.isLink) :
    ∃ taken, entry.diagnostic = .duplicateElement className.text taken := by
  rw [elementEntries, List.mem_append, List.mem_map, List.mem_flatMap] at mem
  obtain ⟨d, -, rfl⟩ | ⟨p, -, mem⟩ := mem
  · cases isLink
  · obtain ⟨d, reported, rfl⟩ := List.mem_map.mp mem
    exact ⟨p.codename, ClassModel.eq_of_mem_offer reported⟩

/-- Every entry of a row comes from one of its elements. -/
lemma exists_of_mem_rowEntries {entry : Entry}
    (mem : entry ∈ project.rowEntries options codename className front es) :
    ∃ seen e, entry ∈ project.elementEntries options codename className seen e := by
  induction es generalizing front with
  | nil => cases mem
  | cons e es ih =>
    rw [rowEntries, List.mem_append] at mem
    obtain own | later := mem
    · exact ⟨front, e, own⟩
    · exact ih later

/-- The entries of typed links in a compilation are duplicates. -/
lemma code_of_mem_entries {entry : Entry} (mem : entry ∈ project.entries options)
    (isLink : entry.isLink) : entry.diagnostic.code = .duplicateElement := by
  obtain ⟨type, -, own⟩ := List.mem_flatMap.mp mem
  unfold typeEntries at own
  split at own
  · rw [List.mem_singleton.mp own] at isLink
    cases isLink
  · obtain ⟨seen, e, added⟩ := exists_of_mem_rowEntries own
    obtain ⟨taken, duplicate⟩ := diagnostic_of_isLink added isLink
    rw [duplicate]
    rfl

/-- A content type that does not fail reports its entries, and gives the classes that its elements
give if it has a name for them. -/
lemma compileContentType_entries {c? : Option CompiledContentType}
    (h : (project.compileContentType options type).result = .ok c?) :
    project.compileContentType options type =
      ⟨(project.typeEntries options type).map (·.diagnostic),
        .ok ((Identifier.ofText? type.codename).map fun className =>
          (addSystem options
            ⟨options.classModel type.codename className (type.expanded project.snippets),
              project.typedModel options type.codename className
                (type.expanded project.snippets)⟩).toCompiled)⟩ := by
  rw [typeEntries]
  cases named : Identifier.ofText? type.codename with
  | none =>
    rw [compileContentType_of_unnamed named]
    rfl
  | some className =>
    have complete := complete_of_ok named h
    rw [compileContentType_of_complete named complete] at h ⊢
    obtain ⟨classes, row, -⟩ := Reporting.result_bind_eq_ok.mp h
    rw [ofClassName_eq project options] at row ⊢
    rw [foldlM_addElement_entries row, Reporting.ok_bind, Reporting.reported_pure, List.append_nil,
      List.nil_append]
    rfl

/-- The implicit property is added to the base class whatever is in the second one. -/
lemma addSystem_untyped {base typed empty : ClassModel} (bare : empty.isEmpty) :
    (addSystem { options with typedLinks := false } ⟨base, empty⟩).toCompiled =
      { (addSystem options ⟨base, typed⟩).toCompiled with typed? := none } := by
  unfold addSystem
  cases options.dialect.systemType? with
  | none => simp only [Classes.toCompiled, bare, if_true]
  | some typeName => simp only [Classes.toCompiled, bare, if_true]

/-- Without typed links, a content type that does not fail with them gives the same base class, and
reports the entries that do not come from a typed link. -/
lemma compileContentType_without_links {c? : Option CompiledContentType}
    (h : (project.compileContentType options type).result = .ok c?) :
    project.compileContentType { options with typedLinks := false } type =
      ⟨((project.typeEntries options type).filter (!·.isLink)).map (·.diagnostic),
        .ok (c?.map fun c => { c with typed? := none })⟩ := by
  rw [compileContentType_of_untyped rfl fun named => complete_of_ok (Option.some_get named).symm h,
    typeEntries_filter]
  rw [compileContentType_entries h] at h
  cases h
  rw [Option.map_map]
  refine congrArg₂ Reporting.mk rfl (congrArg Except.ok ?_)
  exact Option.map_congr fun className _ => addSystem_untyped rfl

/-- What the second class of a compiled content type is: a class of links without constants, named
after the base class. -/
structure TypedVariant (model typed : ClassModel) : Prop where
  nonempty : typed.properties ≠ []
  sourceCodename : typed.sourceCodename = model.sourceCodename
  className : typed.className.text = model.className.text ++ "Typed"
  constants : typed.constants = []
  ids : ∀ p ∈ typed.properties, p.id? = none ∧ p.externalId? = none

/-- The typed class that comes out of a compilation is a variant of the class. -/
lemma typedVariant_of_ok {c : CompiledContentType} {typed : ClassModel}
    (h : (project.compileContentType options type).result = .ok (some c))
    (some : c.typed? = some typed) : TypedVariant c.model typed := by
  obtain ⟨holds, nonempty⟩ := compiled_typed h some
  refine ⟨nonempty, ?_, ?_, holds.constants, fun p mem => (holds.links p mem).ids⟩
  · obtain ⟨className, classes, -, -, row, rfl⟩ := compileContentType_eq_some h
    rw [Classes.toCompiled_model, addSystem_base (reached_base row)]
    exact holds.sourceCodename
  · rw [holds.className]
    rfl

/-- Typed links only ever add to a compilation. Where it succeeds, the one without typed links
gives the same content types with the same base classes and no second ones. It reports the same
but for the entries with which a second class, as the elements in front have left it, answers to
one more link, and these are duplicates. Every second class is a typed variant of its base class. -/
theorem compile_without_links {compiled : List CompiledContentType}
    (h : (project.compile options).result = .ok compiled) :
    (project.compile options).reported = (project.entries options).map (·.diagnostic) ∧
      project.compile { options with typedLinks := false } =
        ⟨((project.entries options).filter (!·.isLink)).map (·.diagnostic),
          .ok (compiled.map fun c => { c with typed? := none })⟩ ∧
      (∀ codename className front classes,
        (front.foldlM (project.addElement options)
          (Classes.ofClassName codename className)).result = .ok classes →
        classes.typed = project.typedModel options codename className front) ∧
      (∀ entry ∈ project.entries options,
        entry.isLink → entry.diagnostic.code = .duplicateElement) ∧
      ∀ c ∈ compiled, ∀ typed, c.typed? = some typed → TypedVariant c.model typed := by
  have fine := compile_succeeds_iff.mp ⟨compiled, h⟩
  -- A content type that is compiled with typed links is compiled without them.
  have off : ∀ type ∈ project.contentTypes, ∃ c?,
      (project.compileContentType { options with typedLinks := false } type).result = .ok c? := by
    intro type mem
    obtain ⟨c?, own⟩ := fine type mem
    rw [compileContentType_without_links own]
    exact ⟨_, rfl⟩
  refine ⟨?_, ?_, fun _ _ _ _ => reached_typed, fun entry mem => code_of_mem_entries mem, ?_⟩
  · rw [compile_of_fine fine, entries, List.map_flatMap]
    refine List.flatMap_congr fun type mem => ?_
    obtain ⟨c?, own⟩ := fine type mem
    rw [compileContentType_entries own]
  · rw [compile_of_fine fine] at h
    cases h
    rw [compile_of_fine off, entries, List.filter_flatMap, List.map_flatMap, List.map_filterMap]
    refine congrArg₂ Reporting.mk ?_ (congrArg Except.ok ?_)
    · refine List.flatMap_congr fun type mem => ?_
      obtain ⟨c?, own⟩ := fine type mem
      rw [compileContentType_without_links own]
    · refine List.filterMap_congr fun type mem => ?_
      obtain ⟨c?, own⟩ := fine type mem
      rw [outcome?_of_ok own, outcome?, compileContentType_without_links own]
      cases c? <;> rfl
  · intro c mem typed some
    obtain ⟨type, -, ran⟩ := exists_type_of_mem h mem
    exact typedVariant_of_ok ran some

/-- A post with two links to a writer, and two elements that have the codename of the writer. -/
def board : Project where
  contentTypes := [
    { id := "t1", codename := "post", name := "Post"
      elements := [
        { codename := "author", kind := .linkedItems, allowedTypes := [.id "t2"]
          limit? := some { condition := .exactly, value := 1 } },
        { codename := "editor", kind := .linkedItems, allowedTypes := [.codename "writer"]
          limit? := some { condition := .atMost, value := 1 } },
        { codename := "writer", kind := .text },
        { codename := "writer", kind := .number }] },
    { id := "t2", codename := "writer", name := "Writer" }]
  snippets := []

/-- The second link and the second element of the post are reported with the same words, and the
first of the two reports is the one that is gone without typed links. -/
theorem board_without_links :
    ∃ post writer typed, (board.compile { typedLinks := true }).result = .ok [post, writer] ∧
      (board.compile { typedLinks := true }).reported =
        [.duplicateElement "Post" "writer", .duplicateElement "Post" "writer"] ∧
      (board.entries { typedLinks := true }).map (·.isLink) = [true, false] ∧
      board.compile {} =
        ⟨[.duplicateElement "Post" "writer"],
          .ok [{ post with typed? := none }, { writer with typed? := none }]⟩ ∧
      post.typed? = some typed ∧ TypedVariant post.model typed := by
  have fine : ∃ compiled ∈ (board.compile { typedLinks := true }).result.toOption,
      compiled.length = 2 ∧ (compiled.map (·.typed?.isSome)) = [true, false] := by decide
  obtain ⟨compiled, ran, two, second⟩ := exists_eq_ok fine
  obtain ⟨post, writer, rfl⟩ := List.length_eq_two.mp two
  have some : post.typed?.isSome := (List.cons.inj second).1
  obtain ⟨typed, some⟩ := Option.isSome_iff_exists.mp some
  obtain ⟨reported, off, -, -, variants⟩ := compile_without_links ran
  refine ⟨post, writer, typed, ran, reported.trans (by decide), by decide, off.trans ?_, some,
    variants post List.mem_cons_self typed some⟩
  refine congrArg₂ Reporting.mk ?_ rfl
  decide

end Project

end ContentClasses
