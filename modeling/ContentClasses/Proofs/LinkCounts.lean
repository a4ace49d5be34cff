import ContentClasses.Proofs.Failures
import ContentClasses.Proofs.LinkAnswers
import ContentClasses.Proofs.LinkedRuns

/-!
# What becomes of links

An element that links content items of one content type gives a property of the second class, or is
reported as a duplicate there. The exception is a second link to one item of a content type with the
codename `system`: it takes the place of the first one and is not reported.
`Project.linking_elements_counted` counts all of them.
-/

namespace ContentClasses

/-- The content type that an element links to: the one that its only reference names. -/
def Element.target? (e : Element) (types : List ContentType) : Option ContentType :=
  match e.allowedTypes with
  | [r] => types.find? (·.matchesReference r)
  | _ => none

/-- An element links content items of exactly one content type, and this one has a class name. -/
structure Element.LinksClass (e : Element) (types : List ContentType) : Prop where
  links : e.kind.isItemReference
  named : ∃ target ∈ e.target? types, (Identifier.ofText? target.codename).isSome

/-- An element links one item of a content type with the codename that is kept for the attributes of
an item. -/
structure Element.LinksSystem (e : Element) (types : List ContentType) : Prop where
  single : (ItemCountLimit.effective e.limit?).isSingleItem
  system : ∃ target ∈ e.target? types, target.codename = Property.systemCodename

section Decidable
variable (e : Element) (types : List ContentType) (options : Options) (front : List Element)

instance : Decidable (e.LinksClass types) :=
  decidable_of_iff (_ ∧ _) ⟨fun ⟨links, named⟩ => ⟨links, named⟩,
    fun ⟨links, named⟩ => ⟨links, named⟩⟩

instance : Decidable (e.LinksSystem types) :=
  decidable_of_iff (_ ∧ _) ⟨fun ⟨single, system⟩ => ⟨single, system⟩,
    fun ⟨single, system⟩ => ⟨single, system⟩⟩

instance : Decidable (options.Admits front e) :=
  decidable_of_iff (_ ∧ _) ⟨fun ⟨given, new⟩ => ⟨given, new⟩, fun ⟨given, new⟩ => ⟨given, new⟩⟩

end Decidable

/-- The elements of a row that are admitted behind the elements in front of it. -/
def Options.admitted (options : Options) (front : List Element) : List Element → List Element
  | [] => []
  | e :: es =>
    (if options.Admits front e then [e] else []) ++ options.admitted (front ++ [e]) es

/-- The elements of a content type that are admitted to its base class and link content items of one
content type with a class name. -/
def Project.linking (project : Project) (options : Options) (type : ContentType) : List Element :=
  (options.admitted [] (type.expanded project.snippets)).filter (·.LinksClass project.contentTypes)

/-- The entries of a content type that come from adding typed links to its second class. -/
def Project.linkEntries (project : Project) (options : Options) (type : ContentType) : List Entry :=
  (project.typeEntries options type).filter (·.isLink)

/-- The number of links in the second class of a compiled content type, where it has one. -/
def CompiledContentType.linkCount (c : CompiledContentType) : Nat :=
  (c.typed?.map (·.properties.length)).getD 0

namespace Element
variable {e : Element} {types : List ContentType} {options : Options} {target : ContentType}
  {p : Property}

/-- An element with a target resolves its allowed types to it alone. -/
lemma resolveAllowed_of_target (found : e.target? types = some target) :
    e.resolveAllowed types = .ok [target] := by
  unfold target? at found
  split at found
  case h_1 r alone => exact resolveAllowed_of_alone alone (standsFor_iff.mpr found)
  case h_2 => cases found

/-- Where the references of an element name one content type, this is its target. -/
lemma target?_of_resolveAllowed (h : e.resolveAllowed types = .ok [target]) :
    e.target? types = some target := by
  obtain ⟨r, rest, found, none, references⟩ :=
    List.forall₂_cons_right_iff.mp (mapM_eq_ok.mp h)
  rw [List.forall₂_nil_right_iff] at none
  rw [none] at references
  rw [target?, references]
  unfold resolve at found
  split at found
  case h_1 named =>
    cases found
    exact named
  case h_2 => cases found

/-- A link to a content type with a class name is there in each of its two forms. -/
lemma linkTo_of_named (dialect : Dialect) (own : (Identifier.ofText? e.codename).isSome)
    (named : (Identifier.ofText? target.codename).isSome) :
    ∃ p, e.linkTo target dialect = .ok p ∧
      (p.isSystem ↔ (ItemCountLimit.effective e.limit?).isSingleItem ∧
        target.codename = Property.systemCodename) := by
  obtain ⟨className, called⟩ := Option.isSome_iff_exists.mp named
  by_cases single : (ItemCountLimit.effective e.limit?).isSingleItem
  · refine ⟨_, linkTo_of_single called (isSingleItem_iff.mp single), ?_⟩
    rw [Property.isSystem, beq_iff_eq]
    exact ⟨fun system => ⟨single, system⟩, fun both => both.2⟩
  · -- The codename of a collection starts with that of the element, so it is named as this is.
    have key : (Identifier.ofText? (e.collectionCodename className)).isSome := by
      rw [collectionCodename, String.append_assoc]
      exact Identifier.ofText?_append_isSome own _
    obtain ⟨identifier, made⟩ := Option.isSome_iff_exists.mp key
    refine ⟨{ codename := e.collectionCodename className, identifier
              typeName := dialect.collectionOf className.text }, ?_, ?_⟩
    · rw [linkTo_of_collection called (single ∘ isSingleItem_iff.mpr),
        Property.ofCollectionLink, Identifier.ofText_eq_ok.mpr made]
      rfl
    · rw [Property.isSystem, beq_iff_eq]
      refine ⟨fun system => ?_, fun both => absurd both.1 single⟩
      have underscore : '_' ∈ (e.collectionCodename className).toList := by
        simp [collectionCodename]
      have other : '_' ∉ Property.systemCodename.toList := by decide
      exact absurd (system ▸ underscore) other

end Element

namespace Property
variable {ps : List Property} {p : Property}

/-- The number of properties with the codename `system` that take the place of an earlier one. -/
def replacements (ps : List Property) : Nat :=
  (ps.filter isSystem).length - 1

/-- A property that is not the implicit one replaces nothing. -/
lemma replacements_append_of_other (other : ¬ p.isSystem) :
    replacements (ps ++ [p]) = replacements ps := by
  rw [replacements, List.filter_append, List.filter_cons_of_neg other, List.filter_nil,
    List.append_nil, replacements]

/-- With one more property `system` at the end, every one in front of it has been replaced. -/
lemma replacements_append_of_system (system : p.isSystem) :
    replacements (ps ++ [p]) = (ps.filter isSystem).length := by
  rw [replacements, List.filter_append, List.filter_cons_of_pos system, List.filter_nil,
    List.length_append, List.length_singleton, Nat.add_sub_cancel]

/-- A property `system` is in front of another one exactly when the codename is taken. -/
lemma filter_isSystem_eq_nil (system : p.isSystem) :
    ps.filter isSystem = [] ↔ p.codename ∉ ps.map codename := by
  rw [List.filter_eq_nil_iff, List.mem_map, eq_of_beq system]
  simp [isSystem]

end Property

/-- A property that is offered to a class is new in it, or reported, or takes the place of another
one. -/
lemma ClassModel.offer_counts {model : ClassModel} {ps : List Property}
    (settled : model.properties = Property.settled ps) (p : Property) (className : String) :
    (model.offer p false className).reported.length +
        (Property.firstOfEach (ps ++ [p])).length + Property.replacements (ps ++ [p]) =
      (Property.firstOfEach ps).length + Property.replacements ps + 1 := by
  have mem : p.codename ∈ model.properties.map (·.codename) ↔ p.codename ∈ ps.map (·.codename) := by
    rw [settled, Property.settled_codename, Property.mem_firstOfEach_codename]
  rw [Property.firstOfEach_append]
  -- An offer counts once: as a report, as a replacement or as the first of its codename.
  by_cases taken : p.codename ∈ ps.map (·.codename)
  · rw [if_pos taken]
    by_cases system : p.isSystem
    · have there : ps.filter Property.isSystem ≠ [] :=
        fun none => (Property.filter_isSystem_eq_nil system).mp none taken
      have some := List.length_pos_iff.mpr there
      rw [offer, addProperty_of_system (mem.mpr taken) system,
        Property.replacements_append_of_system system, Property.replacements]
      show 0 + _ + _ = _
      omega
    · rw [offer, addProperty_of_taken (mem.mpr taken) system,
        Property.replacements_append_of_other system]
      show 1 + _ + _ = _
      omega
  · have same : Property.replacements (ps ++ [p]) = Property.replacements ps := by
      by_cases system : p.isSystem
      · have none := (Property.filter_isSystem_eq_nil system).mpr taken
        rw [Property.replacements_append_of_system system, Property.replacements, none]
        rfl
      · exact Property.replacements_append_of_other system
    rw [if_neg taken, offer, addProperty_of_free (taken ∘ mem.mp), same, List.length_append]
    show 0 + (_ + 1) + _ = _
    omega

namespace Project
variable {project : Project} {options : Options} {type : ContentType} {codename : String}
  {className : Identifier} {front es : List Element} {e : Element} {c : CompiledContentType}
  {compiled : List CompiledContentType}

/-- An element that links a class has a typed link, of the codename `system` exactly when it links
one item of a content type of this codename. -/
lemma link?_of_linksClass (on : options.typedLinks) (own : (Identifier.ofText? e.codename).isSome)
    (links : e.LinksClass project.contentTypes) :
    ∃ p, project.link? options e = some p ∧
      (p.isSystem ↔ e.LinksSystem project.contentTypes) := by
  obtain ⟨target, found, named⟩ := links.named
  have there : project.contentTypes ≠ [] := by
    intro empty
    rw [empty, Element.target?] at found
    split at found <;> cases found
  obtain ⟨p, made, system⟩ := Element.linkTo_of_named options.dialect own named
  refine ⟨p, ?_, system.trans ?_⟩
  · rw [link?, Element.typedLink_of_links links.links there on,
      Element.resolveAllowed_of_target found]
    show (some <$> e.linkTo target options.dialect).toOption.join = _
    rw [made]
    rfl
  · constructor
    · rintro ⟨single, same⟩
      exact ⟨single, target, found, same⟩
    · rintro ⟨single, other, found', same⟩
      rw [found] at found'
      cases found'
      exact ⟨single, same⟩

/-- Any other element has no typed link. -/
lemma link?_of_not_linksClass (other : ¬ e.LinksClass project.contentTypes) :
    project.link? options e = none := by
  rw [link?]
  cases link : e.typedLink project.contentTypes options with
  | error err => rfl
  | ok p? =>
    cases p? with
    | none => rfl
    | some p =>
      obtain ⟨links, target, allowed, made⟩ := Element.typedLink_eq_some link
      obtain ⟨className, named, -⟩ := bind_eq_ok.mp made
      refine absurd ⟨links, target, Element.target?_of_resolveAllowed allowed, ?_⟩ other
      rw [Identifier.ofText_eq_ok.mp named]
      rfl

/-- The typed links of a row are those of its admitted elements that link a class, one for each. -/
lemma forall₂_links (on : options.typedLinks) :
    List.Forall₂ (fun e p => e.LinksSystem project.contentTypes ↔ p.isSystem)
      ((options.admitted front es).filter (·.LinksClass project.contentTypes))
      (project.links options codename className front es) := by
  induction es generalizing front with
  | nil => exact .nil
  | cons e es ih =>
    rw [Options.admitted, List.filter_append, links, newLink?]
    refine List.rel_append ?_ ih
    by_cases admits : options.Admits front e
    · rw [if_pos admits, Options.admits_iff.mp admits]
      have own := (Options.property?_isSome.mp admits.given).2
      by_cases linksClass : e.LinksClass project.contentTypes
      · obtain ⟨p, link, system⟩ := link?_of_linksClass on own linksClass
        rw [List.filter_cons_of_pos (by simpa using linksClass), link]
        exact .cons system.symm .nil
      · rw [List.filter_cons_of_neg (by simpa using linksClass), link?_of_not_linksClass linksClass]
        exact .nil
    · rw [if_neg admits]
      cases skip : options.skip? codename className front e with
      | some d => exact .nil
      | none => exact absurd (Options.admits_iff.mpr skip) admits

/-- The number of properties of a row of links, with those that replace another one. -/
def settledCount (project : Project) (options : Options) (codename : String)
    (className : Identifier) (elements : List Element) : Nat :=
  (Property.firstOfEach (project.links options codename className [] elements)).length +
    Property.replacements (project.links options codename className [] elements)

/-- The typed link of one element is a property, a replacement or an entry. -/
lemma elementEntries_count :
    ((project.elementEntries options codename className front e).filter (·.isLink)).length +
        project.settledCount options codename className (front ++ [e]) =
      project.settledCount options codename className front +
        (project.newLink? options codename className front e).toList.length := by
  have others : ∀ ds : List Diagnostic, (ds.map (Entry.mk · false)).filter (·.isLink) = [] := by
    intro ds
    simp
  have links : ∀ ds : List Diagnostic,
      ((ds.map (Entry.mk · true)).filter (·.isLink)).length = ds.length := by
    intro ds
    simp [List.filter_map, Function.comp_def]
  rw [elementEntries, List.filter_append, others, List.nil_append, settledCount, links_append,
    Project.links, Project.links, List.append_nil, List.nil_append, settledCount]
  -- One more element offers one link or none.
  cases project.newLink? options codename className front e with
  | none =>
    rw [Option.toList_none, List.append_nil]
    exact Nat.zero_add _
  | some p =>
    have step := @ClassModel.offer_counts (project.typedModel options codename className front) _
      rfl p className.text
    rw [Option.toList_some, List.flatMap_singleton, links, List.length_singleton]
    omega

/-- The typed links of a row of elements are properties, replacements and entries. -/
lemma rowEntries_count :
    ((project.rowEntries options codename className front es).filter (·.isLink)).length +
        project.settledCount options codename className (front ++ es) =
      project.settledCount options codename className front +
        (project.links options codename className front es).length := by
  induction es generalizing front with
  | nil =>
    rw [List.append_nil]
    exact Nat.zero_add _
  | cons e es ih =>
    have step := @elementEntries_count project options codename className front e
    have rest := @ih (front ++ [e])
    rw [List.append_assoc, List.singleton_append] at rest
    rw [rowEntries, Project.links, List.filter_append, List.length_append, List.length_append]
    omega

/-- The second class of a content type that is compiled has the links on which its row settles. -/
lemma linkCount_of_ok (named : Identifier.ofText? type.codename = some className)
    (h : (project.compileContentType options type).result = .ok (some c)) :
    c.linkCount = (Property.firstOfEach (project.links options type.codename className []
      (type.expanded project.snippets))).length := by
  have settled : ∀ ps, (Property.settled ps).length = (Property.firstOfEach ps).length :=
    fun ps => List.length_map _
  rw [compileContentType_entries h, named] at h
  cases h
  rw [CompiledContentType.linkCount, Classes.toCompiled_typed?, addSystem_typed, ← settled]
  split
  case isTrue empty =>
    have none : Property.settled (project.links options type.codename className []
        (type.expanded project.snippets)) = [] := List.isEmpty_iff.mp empty
    rw [none]
    rfl
  case isFalse => rfl

/-- The entries of a typed link are about the base class. -/
lemma diagnostic_of_mem_linkEntries (named : Identifier.ofText? type.codename = some className)
    {entry : Entry} (mem : entry ∈ project.linkEntries options type) :
    ∃ codename, entry.diagnostic = .duplicateElement className.text codename := by
  obtain ⟨there, isLink⟩ := List.mem_filter.mp mem
  rw [typeEntries, named] at there
  obtain ⟨seen, e, added⟩ := exists_of_mem_rowEntries there
  exact diagnostic_of_isLink added isLink

/-- The elements of a compiled content type that link a class are the links of its second class, the
reports about others, and the links that take the place of an earlier one. -/
lemma linking_count (on : options.typedLinks)
    (named : Identifier.ofText? type.codename = some className)
    (h : (project.compileContentType options type).result = .ok (some c)) :
    (project.linking options type).length =
      c.linkCount + (project.linkEntries options type).length +
        (((project.linking options type).filter
          (·.LinksSystem project.contentTypes)).length - 1) := by
  have links := @forall₂_links project options type.codename className []
    (type.expanded project.snippets) on
  have systems := List.rel_filter (p := (·.LinksSystem project.contentTypes))
    (q := Property.isSystem) (fun e p same => by simpa using same) links
  have count := @rowEntries_count project options type.codename className []
    (type.expanded project.snippets)
  have empty : project.settledCount options type.codename className [] = 0 := rfl
  have entries : project.linkEntries options type =
      (project.rowEntries options type.codename className []
        (type.expanded project.snippets)).filter (·.isLink) := by
    rw [linkEntries, typeEntries, named]
  have all : (project.linking options type).length = _ := links.length_eq
  have some : ((project.linking options type).filter (·.LinksSystem project.contentTypes)).length =
    _ := systems.length_eq
  rw [settledCount, Property.replacements, List.nil_append, empty] at count
  rw [linkCount_of_ok named h, all, some, entries]
  omega

/-- In a compilation with typed links that succeeds, count the elements of a content type that are
admitted to its base class and link content items of one content type with a class name. Each of
them is a property of the second class, or is reported as a duplicate by it, or is one of those that
link one item of a content type with the codename `system` behind the first such element. So the
properties and the reports account for all of them exactly when there is at most one of the
latter. -/
theorem linking_elements_counted (on : options.typedLinks)
    (h : (project.compile options).result = .ok compiled) :
    (project.compile options).reported =
        project.contentTypes.flatMap
          (fun type => (project.compileContentType options type).reported) ∧
      List.Forall₂
        (fun type c =>
          let linking := project.linking options type
          let duplicates := project.linkEntries options type
          let system := linking.filter (·.LinksSystem project.contentTypes)
          project.compileContentType options type =
              ⟨(project.typeEntries options type).map (·.diagnostic), .ok (some c)⟩ ∧
            (∀ entry ∈ duplicates, ∃ codename,
              entry.diagnostic = .duplicateElement c.model.className.text codename) ∧
            linking.length = c.linkCount + duplicates.length + (system.length - 1) ∧
            (linking.length = c.linkCount + duplicates.length ↔ system.length ≤ 1))
        (project.contentTypes.filter fun type => (Identifier.ofText? type.codename).isSome)
        compiled := by
  obtain ⟨reported, results, rfl, rows⟩ := compile_eq_ok h
  have kept : ∀ type c?, (project.compileContentType options type).result = .ok c? →
      c?.isSome = (Identifier.ofText? type.codename).isSome := by
    intro type c? ran
    rw [← className_of_ok ran, Option.isSome_map]
  refine ⟨reported, (forall₂_reduceOption rows kept).imp fun type c ran => ?_⟩
  intro linking duplicates system
  have named : Identifier.ofText? type.codename = some c.model.className :=
    (className_of_ok ran).symm
  have total : linking.length = c.linkCount + duplicates.length + (system.length - 1) :=
    linking_count on named ran
  refine ⟨?_, fun entry mem => diagnostic_of_mem_linkEntries named mem, total, by omega⟩
  have ends := compileContentType_entries ran
  rw [ends] at ran ⊢
  exact congrArg (Reporting.mk _) ran

/-- In the board, two elements of the post link to a writer: one of them is a link of the second
class, and the other one is reported. -/
theorem board_links_counted :
    let options : Options := { typedLinks := true }
    let type := board.contentTypes[0]
    ∃ post writer, (board.compile options).result = .ok [post, writer] ∧
      (board.linking options type).map (·.codename) = ["author", "editor"] ∧
      (board.linkEntries options type).map (·.diagnostic) = [.duplicateElement "Post" "writer"] ∧
      post.linkCount = 1 ∧
      (board.linking options type).length =
        post.linkCount + (board.linkEntries options type).length := by
  intro options type
  have fine : ∃ compiled ∈ (board.compile options).result.toOption, compiled.length = 2 := by decide
  obtain ⟨compiled, ran, two⟩ := exists_eq_ok fine
  obtain ⟨post, writer, rfl⟩ := List.length_eq_two.mp two
  obtain ⟨-, rows⟩ := linking_elements_counted rfl ran
  have types : board.contentTypes.filter (fun type => (Identifier.ofText? type.codename).isSome) =
      [type, board.contentTypes[1]] := by decide
  rw [types] at rows
  obtain ⟨-, -, -, exact⟩ := (List.forall₂_cons.mp rows).1
  have linking : (board.linking options type).map (·.codename) = ["author", "editor"] := by decide
  have entries : (board.linkEntries options type).map (·.diagnostic) =
      [.duplicateElement "Post" "writer"] := by decide
  have system : ((board.linking options type).filter
      (·.LinksSystem board.contentTypes)).length ≤ 1 := by decide
  have total := exact.mpr system
  have both := congrArg List.length linking
  have one := congrArg List.length entries
  rw [List.length_map] at both one
  refine ⟨post, writer, ran, linking, entries, ?_, total⟩
  rw [both, one] at total
  exact (Nat.add_right_cancel total).symm

/-- A station with two links to one item of a content type with the codename `system`. -/
def station : Project where
  contentTypes := [
    { id := "t1", codename := "station", name := "Station"
      elements := [
        { codename := "primary", kind := .linkedItems, allowedTypes := [.codename "system"]
          limit? := some { condition := .exactly, value := 1 } },
        { codename := "backup", kind := .linkedItems, allowedTypes := [.id "t2"]
          limit? := some { condition := .atMost, value := 1 } }] },
    { id := "t2", codename := "system", name := "System" }]
  snippets := []

/-- The station is compiled without a report. Two of its elements link a class, and only one of them
is in the second class. -/
theorem station_link_lost :
    let options : Options := { typedLinks := true }
    let type := station.contentTypes[0]
    ∃ c system typed, station.compile options = ⟨[], .ok [c, system]⟩ ∧
      (station.linking options type).map (·.codename) = ["primary", "backup"] ∧
      c.typed? = some typed ∧ typed.properties.map (·.codename) = ["system"] ∧
      (station.linking options type).length ≠
        c.linkCount + (station.linkEntries options type).length := by
  intro options type
  have fine : ∃ compiled ∈ (station.compile options).result.toOption, compiled.length = 2 ∧
      ∃ c ∈ compiled.head?, ∃ typed ∈ c.typed?, typed.properties.map (·.codename) = ["system"] := by
    decide
  obtain ⟨compiled, ran, two, c, first, typed, some, links⟩ := exists_eq_ok fine
  obtain ⟨c, system, rfl⟩ := List.length_eq_two.mp two
  cases first
  have quiet : (station.compile options).reported = [] := by decide
  have linking : (station.linking options type).map (·.codename) = ["primary", "backup"] := by
    decide
  have entries : (station.linkEntries options type).length = 0 := by decide
  refine ⟨c, system, typed, ?_, linking, some, links, ?_⟩
  · rw [← quiet, ← ran]
  · have both := congrArg List.length linking
    have one := congrArg List.length links
    rw [List.length_map] at both one
    rw [both, entries, CompiledContentType.linkCount, some, Option.map_some, one]
    decide

end Project

end ContentClasses
