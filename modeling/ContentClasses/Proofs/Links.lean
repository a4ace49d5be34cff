import ContentClasses.Proofs.Builder
import ContentClasses.Proofs.Rows

/-!
# Links to content types

When the typed link of an element ends a compilation: only for an allowed content type that is not
there, and then with the first one that the element lists. A class that cannot be named is no
reason, since the link is left out in that case.
-/

namespace ContentClasses

/-- No content type is the one that the reference names. -/
def Reference.IsDead (reference : Reference) (types : List ContentType) : Prop :=
  ∀ type ∈ types, ¬ type.matchesReference reference

/-- The only error of an identifier tells the text. -/
lemma Identifier.ofText_eq_error {text : String} {err : Error} (h : ofText text = .error err) :
    err = .invalidIdentifier text := by
  unfold ofText at h
  split at h
  · cases h
  · cases h
    rfl

lemma Identifier.ofText_eq_ok {text : String} {identifier : Identifier} :
    ofText text = .ok identifier ↔ ofText? text = some identifier := by
  unfold ofText
  cases ofText? text with
  | none => exact ⟨nofun, nofun⟩
  | some made => exact ⟨fun h => by cases h; rfl, fun h => by cases h; rfl⟩

namespace Element
variable {e : Element} {types : List ContentType} {options : Options} {r : Reference}
  {front back : List Reference}

/-- A dead reference is an error that tells it and its element. -/
lemma resolve_of_dead (dead : r.IsDead types) :
    e.resolve types r = .error (.allowedTypeNotFound r e.codename) := by
  have missing : types.find? (·.matchesReference r) = none :=
    List.find?_eq_none.mpr dead
  rw [resolve, missing]

/-- A reference that is not dead is resolved. -/
lemma resolve_of_alive (alive : ¬ r.IsDead types) : ∃ type, e.resolve types r = .ok type := by
  cases found : types.find? (·.matchesReference r) with
  | none => exact absurd (List.find?_eq_none.mp found) alive
  | some type =>
    refine ⟨type, ?_⟩
    rw [resolve, found]

/-- The first reference to a content type that is not there is the error of them all. -/
lemma resolveAllowed_of_dead (split : e.allowedTypes = front ++ r :: back)
    (alive : ∀ s ∈ front, ¬ s.IsDead types) (dead : r.IsDead types) :
    e.resolveAllowed types = .error (.allowedTypeNotFound r e.codename) := by
  rw [resolveAllowed, mapM_eq_error]
  exact ⟨front, r, back, split, fun s hs => resolve_of_alive (alive s hs), resolve_of_dead dead⟩

/-- Allowed types none of which is dead are resolved. -/
lemma resolveAllowed_of_alive (alive : ∀ s ∈ e.allowedTypes, ¬ s.IsDead types) :
    ∃ targets, e.resolveAllowed types = .ok targets := by
  exact mapM_of_ok fun s hs => resolve_of_alive (alive s hs)

/-- A link to a content type fails only where no identifier can be made for it. -/
lemma linkTo_eq_error {target : ContentType} {dialect : Dialect} {err : Error}
    (h : e.linkTo target dialect = .error err) : ∃ text, err = .invalidIdentifier text := by
  obtain unnamed | ⟨className, -, link⟩ := bind_eq_error.mp h
  · exact ⟨_, Identifier.ofText_eq_error unnamed⟩
  · split at link
    case isTrue => cases link
    case isFalse =>
      obtain unnamed | ⟨identifier, -, made⟩ := bind_eq_error.mp link
      · exact ⟨_, Identifier.ofText_eq_error unnamed⟩
      · cases made

/-- The typed link of an element that may have one is read from the content types it allows. -/
lemma typedLink_of_links (links : e.kind.isItemReference) (there : types ≠ [])
    (on : options.typedLinks) :
    e.typedLink types options = (do
      match ← e.resolveAllowed types with
      | [target] => some <$> e.linkTo target options.dialect
      | _ => return none) := by
  rw [typedLink, links, on, List.isEmpty_eq_false_iff.mpr there]
  rfl

/-- An allowed content type that is not there is the error of the typed link. -/
lemma typedLink_of_dead (links : e.kind.isItemReference) (there : types ≠ [])
    (on : options.typedLinks) (split : e.allowedTypes = front ++ r :: back)
    (alive : ∀ s ∈ front, ¬ s.IsDead types) (dead : r.IsDead types) :
    e.typedLink types options = .error (.allowedTypeNotFound r e.codename) := by
  rw [typedLink_of_links links there on, resolveAllowed_of_dead split alive dead]
  rfl

/-- Where all allowed content types are there, a typed link fails only for want of an identifier. -/
lemma typedLink_of_alive (links : e.kind.isItemReference) (there : types ≠ [])
    (on : options.typedLinks) (alive : ∀ s ∈ e.allowedTypes, ¬ s.IsDead types) {err : Error}
    (h : e.typedLink types options = .error err) : ∃ text, err = .invalidIdentifier text := by
  obtain ⟨targets, all⟩ := resolveAllowed_of_alive alive
  rw [typedLink_of_links links there on, all] at h
  obtain impossible | ⟨_, same, link⟩ := bind_eq_error.mp h
  · cases impossible
  · cases same
    split at link
    case h_1 target =>
      cases made : e.linkTo target options.dialect with
      | ok p =>
        rw [made] at link
        cases link
      | error err' =>
        rw [made] at link
        cases link
        exact linkTo_eq_error made
    case h_2 => cases link

end Element

namespace Project
variable {project : Project} {options : Options} {classes : Classes} {e : Element} {r : Reference}
  {front back : List Reference}

/-- A link with a dead reference ends with the error of the first one, and reports nothing. -/
lemma addTypedLink_of_dead (links : e.kind.isItemReference) (there : project.contentTypes ≠ [])
    (on : options.typedLinks) (split : e.allowedTypes = front ++ r :: back)
    (alive : ∀ s ∈ front, ¬ s.IsDead project.contentTypes)
    (dead : r.IsDead project.contentTypes) :
    project.addTypedLink options classes e =
      ⟨[], .error (.allowedTypeNotFound r e.codename)⟩ := by
  rw [addTypedLink, Element.typedLink_of_dead links there on split alive dead]
  rfl

/-- A link without dead references is added, skipped or reported, but does not fail. -/
lemma addTypedLink_of_alive (links : e.kind.isItemReference) (there : project.contentTypes ≠ [])
    (on : options.typedLinks) (alive : ∀ s ∈ e.allowedTypes, ¬ s.IsDead project.contentTypes) :
    ∃ grown, (project.addTypedLink options classes e).result = .ok grown := by
  unfold addTypedLink
  cases link : e.typedLink project.contentTypes options with
  | error err =>
    obtain ⟨text, rfl⟩ := Element.typedLink_of_alive links there on alive link
    exact ⟨classes, rfl⟩
  | ok p? =>
    cases p? with
    | none => exact ⟨classes, rfl⟩
    | some p =>
      obtain ⟨answer, added⟩ := classes.typed.offer_result p classes.base.className.text
      refine ⟨{ classes with typed := answer.1 }, ?_⟩
      simp only [Reporting.bind_of_ok added]
      rfl

end Project

end ContentClasses
