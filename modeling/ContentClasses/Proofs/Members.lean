import ContentClasses.Proofs.Names

/-!
# The members of a class

The names that the source of a class declares are those of its constants and of its properties.
Properties are kept apart by their codenames, and what a source needs is that their names differ.
`Project.compiled_members_distinct_iff` says for which codenames it is so.
-/

namespace ContentClasses

open CSharp (Context classSource typedClassSource declaredMembers)

namespace ClassModel

/-- The names of the constants of a class. -/
def constantNames (model : ClassModel) : List String :=
  "Codename" :: model.constants.map (CSharp.constantName model)

/-- The names of the properties of a class. -/
def propertyNames (model : ClassModel) : List String :=
  model.properties.map (·.identifier.text)

/-- The class has this name, or the codename of one of its properties gives it. -/
def HasName (model : ClassModel) (name : Identifier) : Prop :=
  name = model.className ∨ Identifier.Given model.codenames name

instance (model : ClassModel) (name : Identifier) : Decidable (model.HasName name) :=
  inferInstanceAs (Decidable (_ ∨ _))

/-- The names of properties stay apart: different codenames give different identifiers, and no
codename gives the name of the class. -/
structure NamesApart (model : ClassModel) : Prop where
  distinct : Identifier.Apart model.codenames
  className : ¬ Identifier.Given model.codenames model.className

instance (model : ClassModel) : Decidable model.NamesApart :=
  decidable_of_iff (_ ∧ _) ⟨fun ⟨distinct, className⟩ => ⟨distinct, className⟩,
    fun ⟨distinct, className⟩ => ⟨distinct, className⟩⟩

/-- The constants stay apart from the class and its properties: none of these has the name of the
constant for the codename of the class, or of that for the codename of a property. -/
structure ConstantsApart (model : ClassModel) : Prop where
  own : ¬ model.HasName ⟨"Codename"⟩
  others : ∀ a ∈ model.constants, ∀ identifier ∈ Identifier.ofText? a,
    ¬ model.HasName (identifier.append "Codename")

instance (model : ClassModel) : Decidable model.ConstantsApart :=
  decidable_of_iff (_ ∧ _) ⟨fun ⟨own, others⟩ => ⟨own, others⟩,
    fun ⟨own, others⟩ => ⟨own, others⟩⟩

namespace WellNamed
variable {model : ClassModel} {context : Context}

/-- The source of a class declares its constants and behind them its properties. -/
lemma declaredMembers_classSource (named : model.WellNamed)
    (flat : '\n' ∉ context.namespaceName.toList) :
    declaredMembers (classSource context model) = model.constantNames ++ model.propertyNames := by
  rw [declaredMembers, CSharp.declarations_classSource named.legible flat]
  simp [constantNames, propertyNames, List.filterMap_map]

/-- The source of a class for typed links declares its properties. -/
lemma declaredMembers_typedClassSource (named : model.WellNamed)
    (flat : '\n' ∉ context.namespaceName.toList) :
    declaredMembers (typedClassSource context model) = model.propertyNames := by
  rw [declaredMembers, CSharp.declarations_typedClassSource named.legible flat]
  simp [propertyNames, List.filterMap_map]

/-- The names of the properties are those that their codenames give. -/
lemma propertyNames_eq (named : model.WellNamed) :
    model.propertyNames = Identifier.namesOf model.codenames := by
  have identifiers : model.codenames.filterMap Identifier.ofText? =
      model.properties.map (·.identifier) := by
    rw [codenames, List.filterMap_map, ← List.filterMap_eq_map]
    exact List.filterMap_congr fun p hp => (named.properties p hp).identifier
  rw [propertyNames, Identifier.namesOf, identifiers, List.map_map]
  rfl

/-- A name of the class is its own or that of a property. -/
lemma hasName_iff (named : model.WellNamed) {name : Identifier} :
    model.HasName name ↔ name.text ∈ model.className.text :: model.propertyNames := by
  rw [HasName, List.mem_cons, named.propertyNames_eq, Identifier.mem_namesOf,
    Identifier.text_injective.eq_iff]

/-- The names of properties are distinct, and differ from that of the class, exactly when their
codenames keep them apart. -/
lemma propertyNames_distinct_iff (named : model.WellNamed) :
    model.propertyNames.Nodup ∧ model.className.text ∉ model.propertyNames ↔
      model.NamesApart := by
  rw [named.propertyNames_eq, Identifier.namesOf_nodup_iff named.distinct, Identifier.mem_namesOf]
  constructor
  · rintro ⟨distinct, className⟩
    exact ⟨distinct, className⟩
  · rintro ⟨distinct, className⟩
    exact ⟨distinct, className⟩

/-- Where the names of properties stay apart, so do those of constants. -/
lemma constantNames_nodup (named : model.WellNamed) (apart : model.NamesApart) :
    model.constantNames.Nodup := by
  rw [constantNames, List.nodup_cons]
  constructor
  · intro own
    obtain ⟨a, ha, same⟩ := List.mem_map.mp own
    obtain ⟨identifier, made, name⟩ := named.constantName ha
    -- The constant for the codename of the class is an ending without an identifier in front.
    have empty : identifier.text = "" := by
      rw [name, Identifier.append] at same
      exact String.append_eq_right_iff.mp same
    exact (Identifier.isPascal_of_ofText? made).ne_nil (by rw [empty]; rfl)
  · rw [List.nodup_map_iff_inj_on named.constantsDistinct]
    intro a ha b hb same
    obtain ⟨first, madeFirst, nameFirst⟩ := named.constantName ha
    obtain ⟨second, madeSecond, nameSecond⟩ := named.constantName hb
    rw [nameFirst, nameSecond] at same
    have equal : first = second := Identifier.append_injective (Identifier.text_injective same)
    rw [← equal] at madeSecond
    exact apart.distinct a (named.constants a ha) b (named.constants b hb) first madeFirst
      madeSecond

/-- The constants stay apart exactly when none of their names is that of the class or of a
property. -/
lemma constantsApart_iff (named : model.WellNamed) :
    model.ConstantsApart ↔
      ∀ name ∈ model.constantNames, name ∉ model.className.text :: model.propertyNames := by
  rw [constantNames, List.forall_mem_cons, List.forall_mem_map]
  constructor
  · rintro ⟨own, others⟩
    refine ⟨fun taken => own (named.hasName_iff.mpr taken), fun a ha => ?_⟩
    obtain ⟨identifier, made, name⟩ := named.constantName ha
    rw [name, ← named.hasName_iff]
    exact others a ha identifier made
  · rintro ⟨own, others⟩
    refine ⟨fun taken => own (named.hasName_iff.mp taken), fun a ha identifier made taken => ?_⟩
    obtain ⟨other, made', name⟩ := named.constantName ha
    have same : other = identifier := Option.some.inj (made'.symm.trans made)
    rw [same] at name
    apply others a ha
    rw [name]
    exact named.hasName_iff.mp taken

/-- The names of constants and properties are distinct, and differ from that of the class, exactly
when the codenames keep all of them apart. -/
lemma memberNames_distinct_iff (named : model.WellNamed) :
    (model.constantNames ++ model.propertyNames).Nodup ∧
        model.className.text ∉ model.constantNames ++ model.propertyNames ↔
      model.NamesApart ∧ model.ConstantsApart := by
  rw [← named.propertyNames_distinct_iff, named.constantsApart_iff, List.nodup_append',
    List.mem_append]
  constructor
  · rintro ⟨⟨-, properties, disjoint⟩, other⟩
    refine ⟨⟨properties, fun there => other (.inr there)⟩, fun name mem taken => ?_⟩
    obtain rfl | property := List.mem_cons.mp taken
    · exact other (.inl mem)
    · exact disjoint mem property
  · rintro ⟨properties, disjoint⟩
    have constants := named.constantNames_nodup (named.propertyNames_distinct_iff.mp properties)
    refine ⟨⟨constants, properties.1, fun name mem property =>
      disjoint name mem (List.mem_cons_of_mem _ property)⟩, ?_⟩
    rintro (constant | property)
    · exact disjoint _ constant List.mem_cons_self
    · exact properties.2 property

end WellNamed

end ClassModel

namespace Project
variable {project : Project} {options : Options} {context : Context}
  {compiled : List CompiledContentType}

/-- In a compilation that succeeds, the members that the source of a class declares have distinct
names, none of them that of the class, exactly when the codenames of its properties give distinct
identifiers, none of them that of the class, and no constant has one of these names. In the source
of a class for typed links, which has no constants, this is so exactly when the codenames of the
links give distinct identifiers, none of them that of the class. -/
theorem compiled_members_distinct_iff (h : (project.compile options).result = .ok compiled)
    (flat : '\n' ∉ context.namespaceName.toList) :
    ∀ c ∈ compiled,
      ((declaredMembers (classSource context c.model)).Nodup ∧
          c.model.className.text ∉ declaredMembers (classSource context c.model) ↔
        c.model.NamesApart ∧ c.model.ConstantsApart) ∧
      ∀ typed, c.typed? = some typed →
        ((declaredMembers (typedClassSource context typed)).Nodup ∧
            typed.className.text ∉ declaredMembers (typedClassSource context typed) ↔
          typed.NamesApart) := by
  intro c mem
  obtain ⟨type, -, ran⟩ := exists_type_of_mem h mem
  constructor
  · have named := wellNamed_model ran
    rw [named.declaredMembers_classSource flat]
    exact named.memberNames_distinct_iff
  · intro typed some
    have named := wellNamed_typed ran some
    rw [named.declaredMembers_typedClassSource flat]
    exact named.propertyNames_distinct_iff

/-- No source of the newsroom declares a member twice, or one with the name of its class. -/
theorem newsroom_members_distinct :
    let context : Context := ⟨"News", .delivery⟩
    ∃ compiled, (newsroom.compile { typedLinks := true }).result = .ok compiled ∧
      compiled.map (fun c => (c.model.propertyNames, c.typed?.map (·.propertyNames))) =
        [(["Author", "Related", "Lost", "System"], some ["Writer", "RelatedArticle"]),
          (["System"], none)] ∧
      ∀ c ∈ compiled,
        ((declaredMembers (classSource context c.model)).Nodup ∧
          c.model.className.text ∉ declaredMembers (classSource context c.model)) ∧
        ∀ typed, c.typed? = some typed →
          (declaredMembers (typedClassSource context typed)).Nodup ∧
            typed.className.text ∉ declaredMembers (typedClassSource context typed) := by
  intro context
  have fine : ∃ compiled ∈ (newsroom.compile { typedLinks := true }).result.toOption,
      compiled.map (fun c => (c.model.propertyNames, c.typed?.map (·.propertyNames))) =
        [(["Author", "Related", "Lost", "System"], some ["Writer", "RelatedArticle"]),
          (["System"], none)] ∧
      ∀ c ∈ compiled, (c.model.NamesApart ∧ c.model.ConstantsApart) ∧
        ∀ typed ∈ c.typed?, typed.NamesApart := by decide
  obtain ⟨compiled, ran, names, apart⟩ := exists_eq_ok fine
  have flat : '\n' ∉ context.namespaceName.toList := by
    show '\n' ∉ "News".toList
    decide
  refine ⟨compiled, ran, names, fun c mem => ?_⟩
  obtain ⟨base, links⟩ := compiled_members_distinct_iff ran flat c mem
  obtain ⟨baseApart, linksApart⟩ := apart c mem
  exact ⟨base.mpr baseApart, fun typed some => (links typed some).mpr (linksApart typed some)⟩

/-- A content type with two codenames that give one identifier. -/
def landing : Project where
  contentTypes := [
    { id := "t1", codename := "landing_page", name := "Landing page"
      elements := [
        { codename := "seo_title", kind := .text },
        { codename := "seo__title", kind := .text }] }]
  snippets := []

/-- The landing page is compiled without a report, and its source declares a property twice, and the
constant for it too. -/
theorem landing_members_repeated :
    ∃ c, landing.compile {} = ⟨[], .ok [c]⟩ ∧
      declaredMembers (classSource ⟨"Pages", .delivery⟩ c.model) =
        ["Codename", "SeoTitleCodename", "SeoTitleCodename", "SeoTitle", "SeoTitle", "System"] ∧
      ¬ (declaredMembers (classSource ⟨"Pages", .delivery⟩ c.model)).Nodup := by
  let c : CompiledContentType := {
    model := {
      sourceCodename := "landing_page"
      className := ⟨"LandingPage"⟩
      properties := [
        { codename := "seo_title", identifier := ⟨"SeoTitle"⟩, typeName := "string" },
        { codename := "seo__title", identifier := ⟨"SeoTitle"⟩, typeName := "string" },
        .system "IContentItemSystemAttributes"]
      constants := ["seo_title", "seo__title"] }
    typed? := none }
  have ran : landing.compile {} = ⟨[], .ok [c]⟩ := by rfl
  obtain ⟨type, -, own⟩ := exists_type_of_mem (congrArg Reporting.result ran) List.mem_cons_self
  have declared := (wellNamed_model own).declaredMembers_classSource
    (by decide : '\n' ∉ (Context.mk "Pages" .delivery).namespaceName.toList)
  have names : c.model.constantNames ++ c.model.propertyNames =
      ["Codename", "SeoTitleCodename", "SeoTitleCodename", "SeoTitle", "SeoTitle", "System"] := by
    decide
  refine ⟨c, ran, declared.trans names, ?_⟩
  rw [declared, names]
  decide

end Project

end ContentClasses
