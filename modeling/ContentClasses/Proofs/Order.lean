import ContentClasses.Proofs.Locality
import ContentClasses.Proofs.Runs

/-!
# The order of content types and snippets

A content type is compiled on its own: of the rest of the project only the answers to references
and to codenames of snippets count, and where ids and codenames are not repeated these do not depend
on any order. `Project.compile_perm` says that to reorder a project is to reorder what its
compilation gives and reports.
-/

namespace ContentClasses

/-- Where keys are not repeated, what is found by a key does not depend on the order. -/
lemma find?_key_perm {α : Type} {key : α → String} {as bs : List α} {k : String}
    (perm : as.Perm bs) (nodup : (as.map key).Nodup) :
    as.find? (key · == k) = bs.find? (key · == k) := by
  have nodup' : (bs.map key).Nodup := (perm.map key).nodup_iff.mp nodup
  apply Option.ext
  intro a
  rw [find?_key_eq_some nodup, find?_key_eq_some nodup', perm.mem_iff]

/-- Two projects answer alike: each reference names the same content type in both, and each codename
the same snippet. -/
structure Project.Agrees (project other : Project) : Prop where
  references : ∀ r, project.contentTypes.find? (·.matchesReference r) =
    other.contentTypes.find? (·.matchesReference r)
  snippets : ∀ codename, project.snippets.find? (·.codename == codename) =
    other.snippets.find? (·.codename == codename)
  isEmpty : project.contentTypes.isEmpty = other.contentTypes.isEmpty

namespace Project.Agrees
variable {project other : Project} {options : Options}

lemma concrete (agrees : project.Agrees other) (e : Element) :
    e.concrete project.snippets = e.concrete other.snippets := by
  rw [Element.concrete, Element.expand?, agrees.snippets e.codename]
  rfl

/-- The elements of a content type become concrete in the same way in schemas that agree. -/
lemma concreteElements (agrees : project.Agrees other) (type : ContentType) :
    type.concreteElements project.snippets = type.concreteElements other.snippets := by
  have each : (fun e : Element => e.concrete project.snippets) =
      fun e => e.concrete other.snippets := funext agrees.concrete
  rw [ContentType.concreteElements, each, ContentType.concreteElements]

lemma typedLink (agrees : project.Agrees other) (e : Element) :
    e.typedLink project.contentTypes options = e.typedLink other.contentTypes options := by
  have each : e.resolve project.contentTypes = e.resolve other.contentTypes := by
    funext r
    rw [Element.resolve, agrees.references r, Element.resolve]
  rw [Element.typedLink, Element.resolveAllowed, each, agrees.isEmpty, Element.typedLink,
    Element.resolveAllowed]

/-- An element is added in the same way in schemas that agree. -/
lemma addElement (agrees : project.Agrees other) :
    project.addElement options = other.addElement options := by
  funext classes e
  exact addElement_alike (.refl e) (agrees.typedLink e) classes

/-- A content type is compiled in the same way in schemas that agree. -/
lemma compileContentType (agrees : project.Agrees other) :
    project.compileContentType options = other.compileContentType options := by
  funext type
  rw [Project.compileContentType, agrees.concreteElements, agrees.addElement,
    Project.compileContentType]

end Project.Agrees

namespace Project
variable {project shuffled : Project} {options : Options}

/-- Where ids and codenames are not repeated, a project and a reordering of it answer alike. -/
lemma agrees_of_perm (ids : (project.contentTypes.map (·.id)).Nodup)
    (codenames : (project.contentTypes.map (·.codename)).Nodup)
    (snippetCodenames : (project.snippets.map (·.codename)).Nodup)
    (types : project.contentTypes.Perm shuffled.contentTypes)
    (snippets : project.snippets.Perm shuffled.snippets) : project.Agrees shuffled where
  references
    | .id _ => find?_key_perm types ids
    | .codename _ => find?_key_perm types codenames
  snippets _ := find?_key_perm snippets snippetCodenames
  isEmpty := types.isEmpty_eq

/-- Where ids and codenames are not repeated, a project and a reordering of it compile each content
type alike. One compilation succeeds exactly when the other does, and then both consist of what
each content type gives and reports on its own, each in the order of its project. -/
theorem compile_perm (ids : (project.contentTypes.map (·.id)).Nodup)
    (codenames : (project.contentTypes.map (·.codename)).Nodup)
    (snippetCodenames : (project.snippets.map (·.codename)).Nodup)
    (types : project.contentTypes.Perm shuffled.contentTypes)
    (snippets : project.snippets.Perm shuffled.snippets) :
    ((∃ compiled, (project.compile options).result = .ok compiled) ↔
        ∃ compiled, (shuffled.compile options).result = .ok compiled) ∧
      ∀ compiled, (project.compile options).result = .ok compiled →
        ∃ (outcome : ContentType → Option CompiledContentType)
          (block : ContentType → List Diagnostic),
          (∀ type ∈ project.contentTypes,
            project.compileContentType options type = ⟨block type, .ok (outcome type)⟩ ∧
              shuffled.compileContentType options type = ⟨block type, .ok (outcome type)⟩) ∧
          project.compile options =
            ⟨project.contentTypes.flatMap block, .ok (project.contentTypes.filterMap outcome)⟩ ∧
          shuffled.compile options =
            ⟨shuffled.contentTypes.flatMap block,
              .ok (shuffled.contentTypes.filterMap outcome)⟩ := by
  have alike : project.compileContentType options = shuffled.compileContentType options :=
    (agrees_of_perm ids codenames snippetCodenames types snippets).compileContentType
  have moved : (∀ type ∈ project.contentTypes,
      ∃ c?, (project.compileContentType options type).result = .ok c?) ↔
      ∀ type ∈ shuffled.contentTypes,
        ∃ c?, (shuffled.compileContentType options type).result = .ok c? := by
    rw [alike]
    exact forall_congr' fun type => imp_congr_left types.mem_iff
  constructor
  · rw [compile_succeeds_iff, compile_succeeds_iff, moved]
  · intro compiled ran
    have fine := compile_succeeds_iff.mp ⟨compiled, ran⟩
    have same : project.outcome? options = shuffled.outcome? options := by
      funext type
      rw [outcome?, alike, outcome?]
    refine ⟨project.outcome? options,
      fun type => (project.compileContentType options type).reported, ?_, compile_of_fine fine, ?_⟩
    · intro type mem
      obtain ⟨c?, own⟩ := fine type mem
      rw [← alike, outcome?_of_ok own, ← own]
      exact ⟨rfl, rfl⟩
    · rw [compile_of_fine (moved.mp fine), alike, same]

/-- Two content types that link to each other, one of them by way of two snippets, and a third one
without a class name. -/
def gazette : Project where
  contentTypes := [
    { id := "t1", codename := "article", name := "Article"
      elements := [
        { codename := "seo", kind := .snippet },
        { codename := "credits", kind := .snippet },
        { codename := "seo_title", kind := .number }] },
    { id := "t2", codename := "writer", name := "Writer"
      elements := [
        { codename := "--", kind := .text },
        { codename := "works", kind := .subpages, allowedTypes := [.codename "article"] }] },
    { id := "t3", codename := "$^123", name := "Broken" }]
  snippets := [
    { codename := "seo", elements := [{ codename := "seo_title", kind := .text }] },
    { codename := "credits"
      elements := [
        { codename := "author", kind := .linkedItems, allowedTypes := [.id "t2"]
          limit? := some { condition := .atMost, value := 1 } }] }]

/-- Reversed, the gazette gives the same classes in reverse, and reports the same about each content
type. -/
theorem gazette_reversed :
    let options : Options := { typedLinks := true }
    let reversed : Project := ⟨gazette.contentTypes.reverse, gazette.snippets.reverse⟩
    ∃ compiled, (gazette.compile options).result = .ok compiled ∧
      compiled.map (fun c => (c.model.className.text, c.typed?.isSome)) =
        [("Article", true), ("Writer", true)] ∧
      (reversed.compile options).result = .ok compiled.reverse ∧
      (reversed.compile options).reported =
        [.skippedContentType "$^123", .invalidElementIdentifier "writer" "--",
          .duplicateElement "Article" "seo_title"] := by
  intro options reversed
  have fine : ∃ compiled ∈ (gazette.compile options).result.toOption,
      compiled.map (fun c => (c.model.className.text, c.typed?.isSome)) =
        [("Article", true), ("Writer", true)] := by decide
  obtain ⟨compiled, ran, classes⟩ := exists_eq_ok fine
  obtain ⟨-, both⟩ := @compile_perm gazette reversed options (by decide) (by decide) (by decide)
    (List.reverse_perm _).symm (List.reverse_perm _).symm
  obtain ⟨outcome, block, -, forth, back⟩ := both compiled ran
  refine ⟨compiled, ran, classes, ?_, by decide⟩
  have listed : compiled = gazette.contentTypes.filterMap outcome := by
    rw [forth] at ran
    exact (Except.ok.inj ran).symm
  rw [back, listed, ← List.filterMap_reverse]

end Project

end ContentClasses
