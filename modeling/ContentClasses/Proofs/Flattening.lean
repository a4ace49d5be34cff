import ContentClasses.Proofs.Locality

/-!
# Schemas without snippets

A schema can be written without snippets and guidelines: the elements of a snippet stand in the
place of each reference to it, and guidelines are gone. `Project.compile_flatten` says that both
schemas are compiled to the same.
-/

namespace ContentClasses

/-- What is written in the place of an element: the elements of the first snippet of its codename
for a reference to a snippet, and the element itself otherwise. -/
def Element.inlined (element : Element) (snippets : List Snippet) : List Element :=
  if element.kind = .snippet then
    ((snippets.find? (·.codename == element.codename)).map (·.elements)).getD []
  else [element]

/-- The content type with its snippets written out, and then without guidelines. -/
def ContentType.flatten (type : ContentType) (snippets : List Snippet) : ContentType :=
  { type with
    elements := (type.elements.flatMap (·.inlined snippets)).filter (·.kind ≠ .guidelines) }

/-- The project with the snippets of its content types written out, and without snippets of its
own. -/
def Project.flatten (project : Project) : Project where
  contentTypes := project.contentTypes.map (·.flatten project.snippets)
  snippets := []

/-- An element that is compiled as it stands: no reference to a snippet and no guidelines. -/
structure Element.IsConcrete (e : Element) : Prop where
  snippet : e.kind ≠ .snippet
  guidelines : e.kind ≠ .guidelines

/-- No snippet refers to a snippet. -/
def Snippet.AllShallow (snippets : List Snippet) : Prop :=
  ∀ snippet ∈ snippets, ∀ e ∈ snippet.elements, e.kind ≠ .snippet

namespace Element
variable {e : Element} {snippets : List Snippet}

/-- What is put in the place of an element is what it is expanded to, guidelines apart. -/
lemma inlined_filter :
    (e.inlined snippets).filter (·.kind ≠ .guidelines) = e.expanded snippets := by
  unfold inlined expanded
  by_cases kind : e.kind = .snippet
  · rw [if_pos kind, if_pos kind]
    cases snippets.find? (·.codename == e.codename) with
    | none => rfl
    | some snippet => rfl
  · rw [if_neg kind, if_neg kind]
    by_cases guidelines : e.kind = .guidelines
    · simp [guidelines]
    · simp [guidelines]

lemma IsConcrete.expanded (concrete : e.IsConcrete) : e.expanded snippets = [e] := by
  rw [Element.expanded, if_neg concrete.snippet, if_neg concrete.guidelines]

lemma IsConcrete.not_lacks (concrete : e.IsConcrete) : ¬ e.LacksSnippet snippets :=
  fun lacks => concrete.snippet lacks.1

/-- What stands in the place of an element refers to no snippet where no snippet does. -/
lemma kind_of_mem_inlined (shallow : Snippet.AllShallow snippets) {e' : Element}
    (mem : e' ∈ e.inlined snippets) : e'.kind ≠ .snippet := by
  unfold inlined at mem
  split at mem
  case isTrue =>
    cases found : snippets.find? (·.codename == e.codename) with
    | none =>
      rw [found] at mem
      cases mem
    | some snippet =>
      rw [found] at mem
      exact shallow snippet (List.mem_of_find?_eq_some found) e' mem
  case isFalse other =>
    rw [List.mem_singleton.mp mem]
    exact other

end Element

namespace ContentType
variable {type : ContentType} {snippets : List Snippet} {r : Reference}

/-- The elements of a flattened content type are those that it is expanded to. -/
lemma flatten_elements : (type.flatten snippets).elements = type.expanded snippets := by
  rw [flatten, List.filter_flatMap, expanded]
  exact List.flatMap_congr fun e _ => Element.inlined_filter

/-- Where snippets hold no snippets, a flattened content type has concrete elements only. -/
lemma isConcrete_of_mem_flatten (shallow : Snippet.AllShallow snippets) {e : Element}
    (mem : e ∈ (type.flatten snippets).elements) : e.IsConcrete := by
  obtain ⟨written, guidelines⟩ := List.mem_filter.mp mem
  obtain ⟨origin, -, inside⟩ := List.mem_flatMap.mp written
  exact ⟨Element.kind_of_mem_inlined shallow inside, of_decide_eq_true guidelines⟩

/-- A content type with its snippets written out is its own expansion. -/
lemma concreteElements_flatten (shallow : Snippet.AllShallow snippets) :
    (type.flatten snippets).concreteElements [] = .ok (type.expanded snippets) := by
  have concrete : ∀ e ∈ (type.flatten snippets).elements, e.IsConcrete :=
    fun e mem => isConcrete_of_mem_flatten shallow mem
  have itself : (type.flatten snippets).expanded [] = (type.flatten snippets).elements := by
    rw [expanded, List.flatMap_congr fun e mem => (concrete e mem).expanded,
      List.flatMap_singleton']
  rw [concreteElements_of_complete fun e mem => (concrete e mem).not_lacks, itself,
    flatten_elements]

/-- A reference names the content types that it named before. -/
lemma sameAnswer_flatten (types : List ContentType) (snippets : List Snippet) (r : Reference) :
    Reference.SameAnswer types (types.map (·.flatten snippets)) r r := by
  have matching : (fun type => matchesReference type r) ∘ (·.flatten snippets) =
      fun type => matchesReference type r := by
    funext type
    cases r <;> rfl
  have moved : (types.map (·.flatten snippets)).find? (·.matchesReference r) =
      (types.find? (·.matchesReference r)).map (·.flatten snippets) := by
    rw [List.find?_map, matching]
  cases found : types.find? (·.matchesReference r) with
  | some type =>
    rw [found] at moved
    exact .found found moved rfl
  | none =>
    rw [found] at moved
    exact .dead (List.find?_eq_none.mp found) (List.find?_eq_none.mp moved)

end ContentType

namespace Project
variable {project : Project} {options : Options} {type : ContentType}

/-- Elements are added alike where references find content types with their snippets written out. -/
lemma foldlM_addElement_flatten (es : List Element) (classes : Classes) :
    es.foldlM (project.flatten.addElement options) classes =
      es.foldlM (project.addElement options) classes := by
  have empty : project.contentTypes = [] ↔ project.flatten.contentTypes = [] :=
    List.map_eq_nil_iff.symm
  have answers : ∀ e : Element, List.Forall₂
      (Reference.SameAnswer project.contentTypes project.flatten.contentTypes)
      e.allowedTypes e.allowedTypes := fun e =>
    List.forall₂_same.mpr fun r _ => ContentType.sameAnswer_flatten _ _ r
  exact (foldlM_addElement_alike empty
    (List.forall₂_same.mpr fun e _ => ⟨answers e, .refl e⟩) classes).symm

/-- A content type whose snippets are all there is compiled to what it is compiled to with its
snippets written out. -/
lemma compileContentType_flatten (shallow : Snippet.AllShallow project.snippets)
    (complete : ∀ e ∈ type.elements, ¬ e.LacksSnippet project.snippets) :
    project.flatten.compileContentType options (type.flatten project.snippets) =
      project.compileContentType options type := by
  have codename : (type.flatten project.snippets).codename = type.codename := rfl
  cases named : Identifier.ofText? type.codename with
  | none =>
    rw [compileContentType_of_unnamed named, compileContentType_of_unnamed (codename ▸ named),
      codename]
  | some className =>
    have elements : (type.flatten project.snippets).concreteElements project.flatten.snippets =
        type.concreteElements project.snippets := by
      rw [ContentType.concreteElements_of_complete complete]
      exact ContentType.concreteElements_flatten shallow
    rw [compileContentType_of_named named, compileContentType_of_named (codename ▸ named), elements,
      codename]
    simp only [foldlM_addElement_flatten]

/-- Snippets are an abbreviation: where none is missing and none refers to another, a project and
the one with its snippets written out and its guidelines removed are compiled to the same, with the
same diagnostics or with the same error. The second one holds no reference to a snippet and no
guidelines. -/
theorem compile_flatten
    (complete : ∀ type ∈ project.contentTypes, ∀ e ∈ type.elements,
      ¬ e.LacksSnippet project.snippets)
    (shallow : Snippet.AllShallow project.snippets) :
    project.flatten.compile options = project.compile options ∧
      ∀ type ∈ project.flatten.contentTypes, ∀ e ∈ type.elements, e.IsConcrete := by
  constructor
  · have rows : List.Forall₂
        (fun flat type => Reporting.Alike Eq (project.flatten.compileContentType options flat)
          (project.compileContentType options type))
        project.flatten.contentTypes project.contentTypes := by
      rw [flatten, List.forall₂_map_left_iff, List.forall₂_same]
      intro type mem
      rw [← compileContentType_flatten shallow (complete type mem)]
      exact .refl _
    refine ((Reporting.Alike.mapM rows).bind (S := Eq) fun results others same => ?_).eq
    rw [List.forall₂_eq_eq_eq] at same
    rw [same]
    exact .pure rfl
  · intro flat mem e he
    obtain ⟨type, -, rfl⟩ := List.mem_map.mp mem
    exact ContentType.isConcrete_of_mem_flatten shallow he

/-- A guide that includes one of two snippets of the same codename twice, with guidelines of its own
and in the snippet, a codename in common with the snippet, and a link in the snippet to the guide
itself. -/
def handbook : Project where
  contentTypes := [
    { id := "t1", codename := "$^123", name := "Broken" },
    { id := "t2", codename := "guide", name := "Guide"
      elements := [
        { codename := "intro", kind := .guidelines },
        { codename := "related", kind := .snippet },
        { codename := "title", kind := .number },
        { codename := "related", kind := .snippet }] }]
  snippets := [
    { codename := "related"
      elements := [
        { codename := "title", kind := .text },
        { codename := "hint", kind := .guidelines },
        { codename := "next", kind := .linkedItems, allowedTypes := [.id "t2"]
          limit? := some { condition := .atMost, value := 1 } }] },
    { codename := "related", elements := [{ codename := "keywords", kind := .taxonomy }] }]

/-- Written out, the guide has five elements in place of four, and both handbooks report the three
that repeat a codename. -/
theorem handbook_flattened :
    handbook.flatten.contentTypes.map (·.elements.map (·.codename)) =
        [[], ["title", "next", "title", "title", "next"]] ∧
      (handbook.compile { typedLinks := true }).reported =
        [.skippedContentType "$^123", .duplicateElement "Guide" "title",
          .duplicateElement "Guide" "title", .duplicateElement "Guide" "next"] ∧
      (∃ c ∈ (handbook.compile { typedLinks := true }).result.toOption, c.length = 1) ∧
      handbook.flatten.compile { typedLinks := true } =
        handbook.compile { typedLinks := true } := by
  have complete : ∀ type ∈ handbook.contentTypes, ∀ e ∈ type.elements,
      ¬ e.LacksSnippet handbook.snippets := by
    unfold Element.LacksSnippet
    decide
  have shallow : Snippet.AllShallow handbook.snippets := by
    unfold Snippet.AllShallow
    decide
  exact ⟨by decide, by decide, by decide, (compile_flatten complete shallow).1⟩

end Project

end ContentClasses
