import ContentClasses.Proofs.Rows
import ContentClasses.Schema.Expansion

/-!
# Expansion of snippets

The elements of a content type with its snippets expanded, as one list. Expansion gives this list
unless an element refers to a snippet that is missing, and then names the first such element.
-/

namespace ContentClasses

namespace Element

/-- The elements that stand in the place of an element: the content of the first snippet of its
codename for a reference to a snippet, nothing for guidelines, and the element itself otherwise. -/
def expanded (element : Element) (snippets : List Snippet) : List Element :=
  if element.kind = .snippet then
    ((snippets.find? (·.codename == element.codename)).map Snippet.content).getD []
  else if element.kind = .guidelines then []
  else [element]

/-- The element refers to a snippet, and there is none of its codename. -/
def LacksSnippet (element : Element) (snippets : List Snippet) : Prop :=
  element.kind = .snippet ∧ ∀ snippet ∈ snippets, snippet.codename ≠ element.codename

variable {element : Element} {snippets : List Snippet}

/-- An element whose snippet is missing fails. -/
lemma concrete_of_lacks (h : element.LacksSnippet snippets) :
    element.concrete snippets = .error (.missingSnippet element.codename) := by
  obtain ⟨kind, missing⟩ := h
  have notFound : snippets.find? (·.codename == element.codename) = none := by
    simpa [List.find?_eq_none] using missing
  simp only [concrete, expand?, kind, if_true, notFound]
  rfl

/-- Any other element is expanded. -/
lemma concrete_of_not_lacks (h : ¬ element.LacksSnippet snippets) :
    element.concrete snippets = .ok (element.expanded snippets) := by
  by_cases kind : element.kind = .snippet
  · cases found : snippets.find? (·.codename == element.codename) with
    | none =>
      refine absurd ⟨kind, ?_⟩ h
      simpa [List.find?_eq_none] using found
    | some snippet =>
      simp only [concrete, expand?, expanded, kind, if_true, found]
      rfl
  · simp only [concrete, expand?, expanded, kind, if_false]
    rfl

end Element

namespace ContentType

/-- The elements of a content type with its snippets expanded. -/
def expanded (type : ContentType) (snippets : List Snippet) : List Element :=
  type.elements.flatMap (·.expanded snippets)

variable {type : ContentType} {snippets : List Snippet}

/-- Where no snippet is missing, all elements of a content type are expanded. -/
lemma concreteElements_of_complete (h : ∀ e ∈ type.elements, ¬ e.LacksSnippet snippets) :
    type.concreteElements snippets = .ok (type.expanded snippets) := by
  have parts : type.elements.mapM (·.concrete snippets) =
      .ok (type.elements.map (·.expanded snippets)) := by
    rw [mapM_eq_ok, List.forall₂_map_right_iff, List.forall₂_same]
    exact fun e he => Element.concrete_of_not_lacks (h e he)
  rw [concreteElements, parts, expanded, List.flatMap]
  rfl

/-- The first element whose snippet is missing ends the expansion. -/
lemma concreteElements_of_lacks {front back : List Element} {e : Element}
    (split : type.elements = front ++ e :: back)
    (complete : ∀ b ∈ front, ¬ b.LacksSnippet snippets) (lacks : e.LacksSnippet snippets) :
    type.concreteElements snippets = .error (.missingSnippet e.codename) := by
  have parts : type.elements.mapM (·.concrete snippets) = .error (.missingSnippet e.codename) := by
    rw [split, mapM_eq_error]
    exact ⟨front, e, back, rfl, fun b hb => ⟨_, Element.concrete_of_not_lacks (complete b hb)⟩,
      Element.concrete_of_lacks lacks⟩
  rw [concreteElements, parts]
  rfl

/-- Expansion succeeds exactly where no snippet is missing. -/
lemma concreteElements_eq_ok {elements : List Element} :
    type.concreteElements snippets = .ok elements ↔
      (∀ e ∈ type.elements, ¬ e.LacksSnippet snippets) ∧ elements = type.expanded snippets := by
  constructor
  · intro h
    by_cases complete : ∀ e ∈ type.elements, ¬ e.LacksSnippet snippets
    · rw [concreteElements_of_complete complete] at h
      cases h
      exact ⟨complete, rfl⟩
    · have some : ∃ e ∈ type.elements, e.LacksSnippet snippets := by simpa using complete
      obtain ⟨front, e, back, split, before, lacks⟩ := exists_first some
      rw [concreteElements_of_lacks split before lacks] at h
      cases h
  · rintro ⟨complete, rfl⟩
    exact concreteElements_of_complete complete

end ContentType

end ContentClasses
