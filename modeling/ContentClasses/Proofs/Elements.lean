import ContentClasses.Proofs.Builder
import ContentClasses.Proofs.Properties

/-!
# Elements and their properties

Which property an element gives, with which diagnostic it is left out behind others, and what the
class of a content type holds once a list of elements is added to it.
-/

namespace ContentClasses

namespace Options
variable (options : Options)

/-- The property that an element gives: none without a type for its kind or an identifier for its
codename. -/
def property? (element : Element) : Option Property := do
  let typeName ← options.typeName? element.kind
  let identifier ← Identifier.ofText? element.codename
  return {
    codename := element.codename
    identifier
    typeName
    id? := element.id?
    externalId? := element.externalId? }

/-- The properties that elements give, in order. -/
def candidates (elements : List Element) : List Property :=
  elements.filterMap options.property?

/-- The class of a content type once elements are added to it. -/
def classModel (codename : String) (className : Identifier) (elements : List Element) :
    ClassModel where
  sourceCodename := codename
  className := className
  properties := Property.settled (options.candidates elements)
  constants := (Property.firstOfEach (options.candidates elements)).map (·.codename)

/-- The diagnostic with which an element is left out of the class of a content type behind the
elements in front of it. -/
def skip? (codename : String) (className : Identifier) (front : List Element)
    (element : Element) : Option Diagnostic :=
  if (options.typeName? element.kind).isNone then
    some (.unknownElementType element.kind.tag className.text element.codename)
  else if (Identifier.ofText? element.codename).isNone then
    some (.invalidElementIdentifier codename element.codename)
  else if ∃ e ∈ front, (options.typeName? e.kind).isSome ∧ e.codename = element.codename then
    some (.duplicateElement className.text element.codename)
  else none

variable {options} {codename : String} {className : Identifier} {front : List Element}
  {e : Element} {p : Property} {d : Diagnostic}

/-- A property is made from a type and an identifier, and has the codename of its element. -/
lemma property?_eq_some (h : options.property? e = some p) :
    options.typeName? e.kind = some p.typeName ∧
      Identifier.ofText? e.codename = some p.identifier ∧ p.codename = e.codename := by
  unfold property? at h
  cases htype : options.typeName? e.kind with
  | none => simp [htype] at h
  | some typeName =>
    cases hname : Identifier.ofText? e.codename with
    | none => simp [htype, hname] at h
    | some identifier =>
      simp only [htype, hname] at h
      cases h
      exact ⟨rfl, rfl, rfl⟩

/-- An element gives a property when its kind has a type and its codename an identifier. -/
lemma property?_isSome :
    (options.property? e).isSome ↔
      (options.typeName? e.kind).isSome ∧ (Identifier.ofText? e.codename).isSome := by
  unfold property?
  cases options.typeName? e.kind <;> cases Identifier.ofText? e.codename <;> simp

/-- The codenames of the candidates are those of the elements that give a property. -/
lemma mem_candidates_codename {c : String} :
    c ∈ (options.candidates front).map (·.codename) ↔
      ∃ e ∈ front, (options.property? e).isSome ∧ e.codename = c := by
  rw [candidates, List.mem_map]
  constructor
  · rintro ⟨p, hp, rfl⟩
    obtain ⟨e, he, h⟩ := List.mem_filterMap.mp hp
    exact ⟨e, he, by rw [h]; rfl, (property?_eq_some h).2.2.symm⟩
  · rintro ⟨e, he, some, rfl⟩
    obtain ⟨p, h⟩ := Option.isSome_iff_exists.mp some
    exact ⟨p, List.mem_filterMap.mpr ⟨e, he, h⟩, (property?_eq_some h).2.2⟩

lemma candidates_append (front back : List Element) :
    options.candidates (front ++ back) = options.candidates front ++ options.candidates back :=
  List.filterMap_append

lemma candidates_singleton : options.candidates [e] = (options.property? e).toList := by
  rw [candidates, List.filterMap_cons]
  cases options.property? e <;> rfl

/-- A codename that sanitizes is taken by the elements in front exactly when one of them with a
type has it, since that one gives a property too. -/
lemma taken_iff (h : options.property? e = some p) :
    p.codename ∈ (options.candidates front).map (·.codename) ↔
      ∃ b ∈ front, (options.typeName? b.kind).isSome ∧ b.codename = e.codename := by
  obtain ⟨-, named, same⟩ := property?_eq_some h
  rw [mem_candidates_codename]
  constructor
  · rintro ⟨b, hb, some, eq⟩
    exact ⟨b, hb, (property?_isSome.mp some).1, eq.trans same⟩
  · rintro ⟨b, hb, some, eq⟩
    refine ⟨b, hb, property?_isSome.mpr ⟨some, ?_⟩, eq.trans same.symm⟩
    rw [eq, named]
    rfl

/-- An element without a property is left out for its kind, or else for its codename. -/
lemma skip?_of_none (h : options.property? e = none) :
    options.skip? codename className front e =
      if (options.typeName? e.kind).isNone then
        some (.unknownElementType e.kind.tag className.text e.codename)
      else some (.invalidElementIdentifier codename e.codename) := by
  have incomplete : ¬ ((options.typeName? e.kind).isSome ∧
      (Identifier.ofText? e.codename).isSome) := by
    rw [← property?_isSome, h]
    exact Bool.false_ne_true
  unfold skip?
  cases htype : options.typeName? e.kind with
  | none => rfl
  | some typeName =>
    cases hname : Identifier.ofText? e.codename with
    | none => rfl
    | some identifier => simp [htype, hname] at incomplete

/-- An element with a property is left out only as a duplicate. -/
lemma skip?_of_some (h : options.property? e = some p) :
    options.skip? codename className front e =
      if p.codename ∈ (options.candidates front).map (·.codename) then
        some (.duplicateElement className.text e.codename)
      else none := by
  obtain ⟨typed, named, -⟩ := property?_eq_some h
  unfold skip?
  simp only [typed, named, taken_iff h, Option.isNone_some, Bool.false_eq_true, if_false]

/-- An element is not left out exactly when it gives a property of a codename that is new. -/
lemma skip?_eq_none :
    options.skip? codename className front e = none ↔
      ∃ p, options.property? e = some p ∧
        p.codename ∉ (options.candidates front).map (·.codename) := by
  cases h : options.property? e with
  | none =>
    rw [skip?_of_none h]
    split <;> simp
  | some p =>
    rw [skip?_of_some h]
    split
    case isTrue taken =>
      refine ⟨nofun, ?_⟩
      rintro ⟨q, ⟨⟩, free⟩
      exact absurd taken free
    case isFalse free => exact ⟨fun _ => ⟨p, rfl, free⟩, fun _ => rfl⟩

/-- An element that is left out gives no property, or one of a codename that is taken. -/
lemma cases_of_skip? (skip : options.skip? codename className front e = some d) :
    options.property? e = none ∨
      ∃ p, options.property? e = some p ∧
        p.codename ∈ (options.candidates front).map (·.codename) ∧
        d = .duplicateElement className.text e.codename := by
  cases h : options.property? e with
  | none => exact .inl rfl
  | some p =>
    rw [skip?_of_some h] at skip
    split at skip
    case isTrue taken =>
      cases skip
      exact .inr ⟨p, rfl, taken, rfl⟩
    case isFalse => cases skip

lemma classModel_append_of_none (h : options.property? e = none) :
    options.classModel codename className (front ++ [e]) =
      options.classModel codename className front := by
  rw [classModel, candidates_append, candidates_singleton, h, Option.toList_none, List.append_nil,
    classModel]

/-- An element with a free codename puts its property and its constant at the end. -/
lemma classModel_append_of_free (h : options.property? e = some p)
    (free : p.codename ∉ (options.candidates front).map (·.codename)) :
    options.classModel codename className (front ++ [e]) =
      { options.classModel codename className front with
        properties := (options.classModel codename className front).properties ++ [p]
        constants := (options.classModel codename className front).constants ++ [p.codename] } := by
  rw [classModel, candidates_append, candidates_singleton, h, Option.toList_some,
    Property.settled_append_of_free free, Property.firstOfEach_append, if_neg free,
    List.map_append]
  rfl

/-- An element with a codename that is taken changes the property `system` or nothing. -/
lemma classModel_append_of_taken (h : options.property? e = some p)
    (taken : p.codename ∈ (options.candidates front).map (·.codename)) :
    options.classModel codename className (front ++ [e]) =
      { options.classModel codename className front with
        properties :=
          if p.isSystem then
            ClassModel.replaceFirst p (options.classModel codename className front).properties
          else (options.classModel codename className front).properties } := by
  rw [classModel, candidates_append, candidates_singleton, h, Option.toList_some,
    Property.firstOfEach_append, if_pos taken]
  by_cases system : p.isSystem
  · have nodup : ((Property.settled (options.candidates front)).map (·.codename)).Nodup := by
      rw [Property.settled_codename]
      exact Property.nodup_firstOfEach _
    rw [Property.settled_append_of_system taken system, if_pos system, classModel,
      ClassModel.replaceFirst_eq_map nodup]
  · rw [Property.settled_append_of_taken taken system, if_neg system, classModel]

/-- Every property has a constant for its codename, in the same order. -/
lemma classModel_constants :
    (options.classModel codename className front).properties.map (·.codename) =
      (options.classModel codename className front).constants :=
  Property.settled_codename _

lemma classModel_length :
    (options.classModel codename className front).properties.length =
      (options.classModel codename className front).constants.length := by
  rw [← classModel_constants, List.length_map]

/-- A codename has a constant exactly when an element with it gives a property. -/
lemma mem_classModel_constants {c : String} :
    c ∈ (options.classModel codename className front).constants ↔
      c ∈ (options.candidates front).map (·.codename) :=
  Property.mem_firstOfEach_codename

end Options

end ContentClasses
