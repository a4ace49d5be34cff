import ContentClasses.Proofs.Declarations
import ContentClasses.Proofs.Identifiers
import ContentClasses.Proofs.TypedClass

/-!
# The names in compiled classes

Both classes of a content type are well named: each is named by an identifier, and so is each of its
properties by the one that its codename gives. All of these names can be read back from a source.
-/

namespace ContentClasses

open CSharp (IsWord Legible)

/-- An identifier is a word of the source. -/
lemma Identifier.IsPascal.isWord {identifier : Identifier} (pascal : identifier.IsPascal) :
    IsWord identifier.text :=
  ⟨pascal.ne_nil, pascal.notMem (by decide), pascal.notMem (by decide)⟩

/-- The type of a kind is a word without quotes. -/
lemma Options.isWord_and_unquoted_of_typeName? {options : Options} {kind : ElementKind}
    {name : String} (h : options.typeName? kind = some name) :
    IsWord name ∧ '\x22' ∉ name.toList := by
  unfold typeName? at h
  split at h
  case h_1 =>
    unfold managementType? at h
    split at h <;> cases h <;> decide
  case h_2 =>
    split at h
    case isTrue =>
      unfold structuredDeliveryType? at h
      split at h <;> cases h <;> decide
    case isFalse =>
      unfold plainDeliveryType? at h
      split at h <;> cases h <;> decide

/-- A collection of a class is a word. -/
lemma Dialect.isWord_collectionOf {dialect : Dialect} {name : String} (word : IsWord name) :
    IsWord (dialect.collectionOf name) := by
  have space := word.space
  have lineFeed := word.lineFeed
  constructor <;> simp [collectionOf, space, lineFeed]

namespace Options
variable {options : Options} {elements : List Element} {p : Property}

/-- An implicit property is the one of an item, in a dialect that has its type and beside elements
that give none of its codename. -/
lemma eq_system_of_mem (mem : p ∈ options.implicitProperties elements) :
    ∃ typeName, options.dialect.systemType? = some typeName ∧ p = Property.system typeName ∧
      Property.systemCodename ∉ (options.candidates elements).map (·.codename) := by
  unfold implicitProperties at mem
  split at mem
  case h_1 typeName typed =>
    split at mem
    case isTrue => cases mem
    case isFalse absent =>
      refine ⟨typeName, typed, List.mem_singleton.mp mem, fun there => absent ?_⟩
      obtain ⟨q, hq, same⟩ := List.mem_map.mp there
      exact List.any_eq_true.mpr ⟨q, hq, beq_iff_eq.mpr same⟩
  case h_2 => cases mem

/-- There is one implicit property at most. -/
lemma nodup_implicitProperties :
    ((options.implicitProperties elements).map (·.codename)).Nodup := by
  unfold implicitProperties
  split
  case h_1 =>
    split
    case isTrue => exact List.nodup_nil
    case isFalse => exact List.nodup_singleton _
  case h_2 => exact List.nodup_nil

end Options

namespace Property

/-- A property is named by the identifier that its codename gives, and its type is a word. Its
constant ends as those of other properties do. -/
structure WellNamed (p : Property) : Prop where
  identifier : Identifier.ofText? p.codename = some p.identifier
  typeName : IsWord p.typeName
  constantEnding : p.constantEnding? = none

namespace WellNamed
variable {options : Options} {e : Element} {p : Property} {typeName : String}

/-- The property of an element is well named. -/
lemma ofElement (h : options.property? e = some p) : p.WellNamed := by
  obtain ⟨typed, named, codename⟩ := Options.property?_eq_some h
  refine ⟨?_, (Options.isWord_and_unquoted_of_typeName? typed).1, ?_⟩
  · rw [codename]
    exact named
  · unfold Options.property? at h
    rw [typed, named] at h
    rw [← Option.some.inj h]

lemma system {dialect : Dialect} (h : dialect.systemType? = some typeName) :
    (Property.system typeName).WellNamed := by
  refine ⟨?_, ?_, rfl⟩
  · have named : Identifier.ofText? systemCodename = some ⟨"System"⟩ := by decide
    exact named
  cases dialect with
  | delivery =>
    cases h
    decide
  | management => cases h

lemma ofLink {types : List ContentType} {dialect : Dialect} (link : p.IsLink types dialect) :
    p.WellNamed := by
  refine ⟨link.identifier, ?_, ?_⟩
  · obtain ⟨target, -, className, named, typeName⟩ := link.typeName
    have word := (Identifier.isPascal_of_ofText? named).isWord
    obtain single | collection := typeName
    · rw [single]
      exact word
    · rw [collection]
      exact Dialect.isWord_collectionOf word
  · cases link with
    | single => rfl
    | collection _ _ made =>
      obtain ⟨identifier, -, rfl⟩ := ofCollectionLink_eq_ok made
      rfl

end WellNamed

/-- No property is made up where repeated ones are settled. -/
lemma mem_of_mem_settled {ps : List Property} {p : Property} (mem : p ∈ settled ps) : p ∈ ps := by
  induction ps using List.reverseRecOn generalizing p with
  | nil => cases mem
  | append_singleton ps q ih =>
    rw [List.mem_append, List.mem_singleton]
    by_cases taken : q.codename ∈ ps.map codename
    · by_cases system : q.isSystem
      · rw [settled_append_of_system taken system] at mem
        obtain ⟨r, hr, rfl⟩ := List.mem_map.mp mem
        split
        case isTrue => exact .inr rfl
        case isFalse => exact .inl (ih hr)
      · rw [settled_append_of_taken taken system] at mem
        exact .inl (ih mem)
    · rw [settled_append_of_free taken] at mem
      exact (List.mem_append.mp mem).imp ih List.mem_singleton.mp

end Property

namespace ClassModel

/-- The codenames of the properties of a class. -/
def codenames (model : ClassModel) : List String :=
  model.properties.map (·.codename)

/-- A class is named by an identifier, and its properties are well named. No codename occurs twice,
and each constant is for the codename of a property. -/
structure WellNamed (model : ClassModel) : Prop where
  className : model.className.IsPascal
  properties : ∀ p ∈ model.properties, p.WellNamed
  distinct : model.codenames.Nodup
  constants : ∀ c ∈ model.constants, c ∈ model.codenames
  constantsDistinct : model.constants.Nodup

namespace WellNamed
variable {model : ClassModel}

/-- The constant of a codename is named after the identifier that the codename gives. -/
lemma constantName (named : model.WellNamed) {c : String} (mem : c ∈ model.constants) :
    ∃ identifier, Identifier.ofText? c = some identifier ∧
      CSharp.constantName model c = (identifier.append "Codename").text := by
  obtain ⟨p, hp, rfl⟩ := List.mem_map.mp (named.constants c mem)
  have found : model.property? p.codename = some p :=
    (find?_key_eq_some named.distinct).mpr ⟨hp, rfl⟩
  refine ⟨p.identifier, (named.properties p hp).identifier, ?_⟩
  rw [CSharp.constantName, found]
  show p.constantName = _
  rw [Property.constantName, (named.properties p hp).constantEnding, Option.getD_none,
    Identifier.append]

/-- All names and types of the class can be read back from a source. -/
lemma legible (named : model.WellNamed) : Legible model where
  className := named.className.isWord
  typeNames p hp := (named.properties p hp).typeName
  identifiers p hp := (Identifier.isPascal_of_ofText? (named.properties p hp).identifier).isWord
  constants c mem := by
    obtain ⟨identifier, made, name⟩ := named.constantName mem
    have pascal := Identifier.isPascal_of_ofText? made
    rw [name]
    exact (pascal.append (by decide)).isWord

end WellNamed

end ClassModel

namespace Project
variable {project : Project} {options : Options} {type : ContentType} {c : CompiledContentType}
  {typed : ClassModel}

/-- A property of a compiled class is that of an element, or the one of an item. -/
lemma given_or_system (h : (project.compileContentType options type).result = .ok (some c))
    {p : Property} (mem : p ∈ c.model.properties) :
    (∃ e, options.property? e = some p) ∨
      ∃ typeName, options.dialect.systemType? = some typeName ∧ p = Property.system typeName := by
  obtain ⟨-, -, model⟩ := model_of_compiled h
  rw [model] at mem
  obtain given | implicit := List.mem_append.mp mem
  · obtain ⟨e, -, made⟩ := List.mem_filterMap.mp (Property.mem_of_mem_settled given)
    exact .inl ⟨e, made⟩
  · obtain ⟨typeName, typed, same, -⟩ := Options.eq_system_of_mem implicit
    exact .inr ⟨typeName, typed, same⟩

/-- The class of a content type is well named with all its members. -/
lemma wellNamed_model (h : (project.compileContentType options type).result = .ok (some c)) :
    c.model.WellNamed := by
  obtain ⟨-, named, model⟩ := model_of_compiled h
  have constants : c.model.constants = (Property.firstOfEach
      (options.candidates (type.expanded project.snippets))).map Property.codename := by
    rw [model]
    rfl
  have settled : c.model.codenames =
      (Property.firstOfEach (options.candidates (type.expanded project.snippets))).map
        Property.codename ++
      (options.implicitProperties (type.expanded project.snippets)).map Property.codename := by
    rw [ClassModel.codenames, model, List.map_append, ← Property.settled_codename]
    rfl
  -- The implicit property is only there where no element has its codename.
  refine ⟨Identifier.isPascal_of_ofText? named, ?_, ?_, ?_, ?_⟩
  · intro p hp
    obtain ⟨e, made⟩ | ⟨typeName, typed, rfl⟩ := given_or_system h hp
    · exact .ofElement made
    · exact .system typed
  · rw [settled, List.nodup_append']
    refine ⟨Property.nodup_firstOfEach _, Options.nodup_implicitProperties, ?_⟩
    intro codename given implicit
    obtain ⟨p, hp, rfl⟩ := List.mem_map.mp implicit
    obtain ⟨typeName, -, rfl, absent⟩ := Options.eq_system_of_mem hp
    exact absent (Property.mem_firstOfEach_codename.mp given)
  · intro codename mem
    rw [settled, ← constants]
    exact List.mem_append_left _ mem
  · rw [constants]
    exact Property.nodup_firstOfEach _

lemma wellNamed_typed (h : (project.compileContentType options type).result = .ok (some c))
    (some : c.typed? = some typed) : typed.WellNamed := by
  obtain ⟨holds, -⟩ := compiled_typed h some
  refine ⟨?_, fun p hp => .ofLink (holds.links p hp), holds.distinct, ?_, ?_⟩
  · rw [holds.className]
    exact (wellNamed_model h).className.append (by decide)
  · rw [holds.constants]
    nofun
  · rw [holds.constants]
    exact List.nodup_nil

end Project

end ContentClasses
