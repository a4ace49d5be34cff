import ContentClasses.Proofs.FixedPoints

/-!
# Answers to a typed link

What an element is answered when its typed link is asked for, as a table with one row for each
case: `Element.typedLink_eq_iff`. The rows say which reason comes before which, and in what form
the link to the one content type that an element allows is named. A link to several items is named
by the element and the class together, which gives no identifier exactly where the codename of the
element has a digit in front of its letters.
-/

namespace ContentClasses

/-- A content type is the one that a reference stands for: the first that it matches. -/
def Reference.StandsFor (r : Reference) (types : List ContentType) (target : ContentType) : Prop :=
  ∃ front back, types = front ++ target :: back ∧
    (∀ type ∈ front, ¬ type.matchesReference r) ∧ target.matchesReference r

namespace Element

/-- An element holds at most one item. -/
def HoldsOne (e : Element) : Prop :=
  e.limit? = some ⟨.atMost, 1⟩ ∨ e.limit? = some ⟨.exactly, 1⟩

/-- The first letter or digit in the codename of an element is a digit. -/
def StartsWithDigit (e : Element) : Prop :=
  ∃ c, Identifier.IsFirst e.codename c ∧ c.isDigit

/-- The content types that an element allows are looked at. -/
structure Looks (e : Element) (types : List ContentType) (options : Options) : Prop where
  links : e.kind = .linkedItems ∨ e.kind = .subpages
  there : types ≠ []
  on : options.typedLinks

/-- The content types that an element allows are looked at, and it is the one that its only
reference stands for. -/
structure LinksOnly (e : Element) (types : List ContentType) (options : Options)
    (target : ContentType) : Prop where
  looks : e.Looks types options
  alone : ∃ r, e.allowedTypes = [r] ∧ r.StandsFor types target

/-- What the typed link of an element is answered. -/
inductive LinkAnswer (e : Element) (types : List ContentType) (options : Options) :
    Except Error (Option Property) → Prop where
  | otherKind (other : ¬ (e.kind = .linkedItems ∨ e.kind = .subpages)) :
      LinkAnswer e types options (.error (.notItemReference e.codename e.kind))
  | noTypes (links : e.kind = .linkedItems ∨ e.kind = .subpages) (none : types = []) :
      LinkAnswer e types options (.error .noContentTypesGiven)
  | turnedOff (links : e.kind = .linkedItems ∨ e.kind = .subpages) (there : types ≠ [])
      (off : ¬ options.typedLinks) :
      LinkAnswer e types options (.error .typedLinksDisabled)
  | notFound {front back : List Reference} {r : Reference} (looks : e.Looks types options)
      (split : e.allowedTypes = front ++ r :: back) (found : ∀ s ∈ front, ¬ s.IsDead types)
      (dead : r.IsDead types) :
      LinkAnswer e types options (.error (.allowedTypeNotFound r e.codename))
  | notOne (looks : e.Looks types options) (found : ∀ s ∈ e.allowedTypes, ¬ s.IsDead types)
      (count : e.allowedTypes.length ≠ 1) :
      LinkAnswer e types options (.ok none)
  | unnamed {target : ContentType} (one : e.LinksOnly types options target)
      (unnamed : Identifier.ofText? target.codename = none) :
      LinkAnswer e types options (.error (.invalidIdentifier target.codename))
  | single {target : ContentType} {className : Identifier} (one : e.LinksOnly types options target)
      (named : Identifier.ofText? target.codename = some className) (limit : e.HoldsOne) :
      LinkAnswer e types options (.ok (some
        { codename := target.codename, identifier := className, typeName := className.text }))
  | collection {target : ContentType} {className identifier : Identifier}
      (one : e.LinksOnly types options target)
      (named : Identifier.ofText? target.codename = some className) (limit : ¬ e.HoldsOne)
      (letter : ¬ e.StartsWithDigit)
      (made : Identifier.ofText? (e.codename ++ "_" ++ className.text) = some identifier) :
      LinkAnswer e types options (.ok (some
        { codename := e.codename ++ "_" ++ className.text, identifier
          typeName := "IEnumerable<" ++ className.text ++ ">" }))
  | digit {target : ContentType} {className : Identifier} (one : e.LinksOnly types options target)
      (named : Identifier.ofText? target.codename = some className) (limit : ¬ e.HoldsOne)
      (digit : e.StartsWithDigit) :
      LinkAnswer e types options
        (.error (.invalidIdentifier (e.codename ++ "_" ++ className.text)))

variable {e : Element} {types : List ContentType} {options : Options} {r : Reference}
  {target : ContentType} {className : Identifier} {answer : Except Error (Option Property)}

section Parts

lemma isItemReference_iff {kind : ElementKind} :
    kind.isItemReference ↔ kind = .linkedItems ∨ kind = .subpages := by
  cases kind <;> simp [ElementKind.isItemReference]

/-- An element without a limit of its own holds one item or more. -/
lemma isSingleItem_iff : (ItemCountLimit.effective e.limit?).isSingleItem ↔ e.HoldsOne := by
  unfold HoldsOne ItemCountLimit.effective ItemCountLimit.isSingleItem
  cases e.limit? with
  | none => decide
  | some limit =>
    obtain ⟨condition, value⟩ := limit
    cases condition <;> simp

/-- A reference stands for the first content type that matches it. -/
lemma standsFor_iff :
    r.StandsFor types target ↔ types.find? (·.matchesReference r) = some target := by
  rw [List.find?_eq_some_iff_append]
  constructor
  · rintro ⟨front, back, split, others, own⟩
    exact ⟨own, front, back, split, by simpa using others⟩
  · rintro ⟨own, front, back, split, others⟩
    exact ⟨front, back, split, by simpa using others, own⟩

/-- The codename of a link to several items gives an identifier unless a digit is in front: behind
the codename of the element there is a class name, which starts with a capital. -/
lemma collection_named_iff (named : Identifier.ofText? target.codename = some className) :
    (Identifier.ofText? (e.codename ++ "_" ++ className.text)).isSome ↔ ¬ e.StartsWithDigit := by
  obtain ⟨capital, cs, text, upper, -⟩ := Identifier.isPascal_of_ofText? named
  have letter : capital.isAlpha := by
    rw [Char.isAlpha, upper]
    rfl
  have behind : ("_".toList ++ className.text.toList).find? Char.isAlphanum = some capital := by
    rw [text, List.find?_append]
    simp [Char.isAlphanum, letter]
  rw [Identifier.ofText?_isSome_iff, String.toList_append, String.toList_append, List.append_assoc,
    List.find?_append, behind, StartsWithDigit]
  simp only [Identifier.isFirst_iff]
  cases first : e.codename.toList.find? Char.isAlphanum with
  | none => simp [letter]
  | some c => simp [Identifier.isAlpha_iff_of_isAlphanum (List.find?_some first)]

/-- A single allowed type is resolved to what its reference stands for. -/
lemma resolveAllowed_of_alone (alone : e.allowedTypes = [r]) (stands : r.StandsFor types target) :
    e.resolveAllowed types = .ok [target] := by
  rw [resolveAllowed, alone, mapM_eq_ok]
  refine .cons ?_ .nil
  rw [resolve, standsFor_iff.mp stands]

/-- The link to the one content type that an element allows, read off its parts. -/
lemma LinksOnly.typedLink_eq (one : e.LinksOnly types options target) :
    e.typedLink types options = some <$> e.linkTo target options.dialect := by
  obtain ⟨⟨links, there, on⟩, r, alone, stands⟩ := one
  rw [typedLink_of_links (isItemReference_iff.mpr links) there on,
    resolveAllowed_of_alone alone stands]
  rfl

/-- A link to a content type whose codename gives no identifier is refused. -/
lemma linkTo_of_unnamed {dialect : Dialect}
    (unnamed : Identifier.ofText? target.codename = none) :
    e.linkTo target dialect = .error (.invalidIdentifier target.codename) := by
  rw [linkTo, Identifier.ofText, unnamed]
  rfl

/-- A link that holds one item is a single one. -/
lemma linkTo_of_single {dialect : Dialect}
    (named : Identifier.ofText? target.codename = some className) (limit : e.HoldsOne) :
    e.linkTo target dialect = .ok (.ofSingleLink target className) := by
  rw [linkTo, Identifier.ofText_eq_ok.mpr named]
  exact if_pos (isSingleItem_iff.mpr limit)

lemma linkTo_of_collection {dialect : Dialect}
    (named : Identifier.ofText? target.codename = some className) (limit : ¬ e.HoldsOne) :
    e.linkTo target dialect = Property.ofCollectionLink e className dialect := by
  rw [linkTo, Identifier.ofText_eq_ok.mpr named]
  exact if_neg (limit ∘ isSingleItem_iff.mp)

end Parts

/-- A row of the table is what the element is answered. -/
lemma LinkAnswer.eq (row : e.LinkAnswer types options answer) :
    e.typedLink types options = answer := by
  cases row with
  | otherKind other =>
    rw [← isItemReference_iff, Bool.not_eq_true] at other
    rw [typedLink, other]
    rfl
  | noTypes links none =>
    rw [← isItemReference_iff] at links
    rw [typedLink, links, none]
    rfl
  | turnedOff links there off =>
    rw [← isItemReference_iff] at links
    rw [Bool.not_eq_true] at off
    rw [typedLink, links, List.isEmpty_eq_false_iff.mpr there, off]
    rfl
  | notFound looks split found dead =>
    -- The first dead reference decides, in front of the question how many types are allowed.
    exact typedLink_of_dead (isItemReference_iff.mpr looks.links) looks.there looks.on split found
      dead
  | notOne looks found count =>
    obtain ⟨targets, resolved⟩ := resolveAllowed_of_alive found
    have several : targets.length ≠ 1 := (mapM_eq_ok.mp resolved).length_eq ▸ count
    rw [typedLink_of_links (isItemReference_iff.mpr looks.links) looks.there looks.on, resolved]
    cases targets with
    | nil => rfl
    | cons _ rest =>
      cases rest with
      | nil => exact absurd rfl several
      | cons => rfl
  | unnamed one unnamed =>
    rw [one.typedLink_eq, linkTo_of_unnamed unnamed]
    rfl
  | single one named limit =>
    rw [one.typedLink_eq, linkTo_of_single named limit]
    rfl
  | collection one named limit _ made =>
    rw [one.typedLink_eq, linkTo_of_collection named limit, Property.ofCollectionLink,
      collectionCodename, Identifier.ofText_eq_ok.mpr made]
    rfl
  | digit one named limit digit =>
    have unnamed := (collection_named_iff named).not.mpr (not_not.mpr digit)
    rw [Option.not_isSome_iff_eq_none] at unnamed
    rw [one.typedLink_eq, linkTo_of_collection named limit, Property.ofCollectionLink,
      collectionCodename, Identifier.ofText, unnamed]
    rfl

/-- Of the content types that an element allows, a first one is not there, or all are. -/
lemma dead_or_alive (e : Element) (types : List ContentType) :
    (∃ front r back, e.allowedTypes = front ++ r :: back ∧ (∀ s ∈ front, ¬ s.IsDead types) ∧
      r.IsDead types) ∨ ∀ s ∈ e.allowedTypes, ¬ s.IsDead types := by
  by_cases some : ∃ r ∈ e.allowedTypes, r.IsDead types
  · exact .inl (exists_first some)
  · exact .inr fun s mem dead => some ⟨s, mem, dead⟩

/-- Where the one content type that an element allows is looked at, one of the last rows is the
answer. -/
lemma LinksOnly.exists_answer (one : e.LinksOnly types options target) :
    ∃ answer, e.LinkAnswer types options answer := by
  cases named : Identifier.ofText? target.codename with
  | none => exact ⟨_, .unnamed one named⟩
  | some className =>
    by_cases limit : e.HoldsOne
    · exact ⟨_, .single one named limit⟩
    · by_cases digit : e.StartsWithDigit
      · exact ⟨_, .digit one named limit digit⟩
      · obtain ⟨identifier, made⟩ :=
          Option.isSome_iff_exists.mp ((collection_named_iff named).mpr digit)
        exact ⟨_, .collection one named limit digit made⟩

/-- The rows of the table leave out no case. -/
lemma exists_linkAnswer (e : Element) (types : List ContentType) (options : Options) :
    ∃ answer, e.LinkAnswer types options answer := by
  by_cases links : e.kind = .linkedItems ∨ e.kind = .subpages
  case neg => exact ⟨_, .otherKind links⟩
  by_cases there : types = []
  case pos => exact ⟨_, .noTypes links there⟩
  by_cases on : options.typedLinks
  case neg => exact ⟨_, .turnedOff links there on⟩
  have looks : e.Looks types options := ⟨links, there, on⟩
  obtain ⟨front, r, back, split, found, dead⟩ | found := e.dead_or_alive types
  · exact ⟨_, .notFound looks split found dead⟩
  by_cases count : e.allowedTypes.length = 1
  case neg => exact ⟨_, .notOne looks found count⟩
  obtain ⟨r, alone⟩ := List.length_eq_one_iff.mp count
  have alive : ¬ r.IsDead types := found r (alone ▸ List.mem_singleton_self r)
  obtain ⟨target, stands⟩ : ∃ target, r.StandsFor types target := by
    simpa [standsFor_iff, ← Option.isSome_iff_exists, Reference.IsDead] using alive
  exact LinksOnly.exists_answer ⟨looks, r, alone, stands⟩

/-- The typed link of an element is answered by the table, which has exactly one row for each
element, list of content types and set of options. -/
theorem typedLink_eq_iff (e : Element) (types : List ContentType) (options : Options)
    (answer : Except Error (Option Property)) :
    e.typedLink types options = answer ↔ e.LinkAnswer types options answer := by
  constructor
  · rintro rfl
    obtain ⟨answer, row⟩ := e.exists_linkAnswer types options
    rwa [row.eq]
  · exact LinkAnswer.eq

/-- The class of the link could be named, but with the codename of the element in front it is
not. -/
example :
    let link : Element :=
      { codename := "2nd_choice", kind := .subpages, allowedTypes := [.id "t1"] }
    let post : ContentType := { id := "t1", codename := "blog_post", name := "Post" }
    link.typedLink [post] { typedLinks := true } =
      .error (.invalidIdentifier "2nd_choice_BlogPost") := by
  decide

end Element

end ContentClasses
