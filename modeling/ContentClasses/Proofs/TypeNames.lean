import ContentClasses.Proofs.TwoRuns
import ContentClasses.Proofs.TypedClass

/-!
# What the dialect and the structured kinds decide

The dialect and the set of structured kinds choose the types of properties and nothing else: which
elements have a type at all, and what links are typed as, is the same for all of them.
`Project.compile_chooses_types` compares two compilations of a project that differ in these options.
-/

namespace ContentClasses

/-- A set asks for the structured type of a kind: by the name of this kind, or for all kinds. -/
def StructuredKinds.Asks (kinds : StructuredKinds) : ElementKind → Prop
  | .richText => kinds.richText ∨ kinds.all
  | .dateTime => kinds.dateTime ∨ kinds.all
  | .linkedItems => kinds.linkedItems ∨ kinds.all
  | _ => False

/-- The check of the kinds is the question whether one of them is asked for. -/
lemma StructuredKinds.appliesTo_iff {kinds : StructuredKinds} {kind : ElementKind} :
    kinds.appliesTo kind ↔ kinds.Asks kind := by
  cases kind <;> simp [appliesTo, Asks, or_comm]

/-- Only three kinds of elements can be structured. -/
lemma StructuredKinds.Asks.mem {kinds : StructuredKinds} {kind : ElementKind}
    (asks : kinds.Asks kind) : kind ∈ [.richText, .dateTime, .linkedItems] := by
  cases kind <;> simp [Asks] at asks ⊢

/-- Properties are replaced alike in two rows that stay in step. -/
lemma ClassModel.replaceFirst_alike {R : Property → Property → Prop} {p q : Property}
    {ps qs : List Property} (codename : ∀ p q, R p q → p.codename = q.codename) (new : R p q)
    (rows : List.Forall₂ R ps qs) : List.Forall₂ R (replaceFirst p ps) (replaceFirst q qs) := by
  induction rows with
  | nil => exact .nil
  | @cons p' q' ps qs head tail ih =>
    rw [replaceFirst, replaceFirst, codename _ _ head, codename _ _ new]
    split
    · exact .cons new tail
    · exact .cons head ih

namespace Options
variable {o o' : Options} {e : Element} {es : List Element} {p q : Property}
  {kind : ElementKind} {codename : String} {className : Identifier} {front : List Element}

/-- The kinds that have a type are those that have one in management. -/
lemma typeName?_isSome (o : Options) (kind : ElementKind) :
    (o.typeName? kind).isSome = (managementType? kind).isSome := by
  obtain ⟨dialect, kinds, links⟩ := o
  cases dialect with
  | management => rfl
  | delivery =>
    rw [typeName?]
    dsimp only
    split
    case isTrue structured =>
      cases kind with
      | richText => rfl
      | dateTime => rfl
      | linkedItems => rfl
      | _ => cases structured
    case isFalse => cases kind <;> rfl

/-- In the management dialect the kind alone decides about the type. -/
lemma typeName?_of_management (management : o.dialect = .management) :
    o.typeName? kind = managementType? kind := by
  rw [typeName?, management]

/-- In delivery, a kind has the same type for two sets that both ask for the structured one or both
do not. -/
lemma typeName?_of_delivery (delivery : o.dialect = .delivery) (delivery' : o'.dialect = .delivery)
    (same : o.structured.Asks kind ↔ o'.structured.Asks kind) :
    o.typeName? kind = o'.typeName? kind := by
  have applies : o.structured.appliesTo kind = o'.structured.appliesTo kind := by
    rw [Bool.eq_iff_iff, StructuredKinds.appliesTo_iff, StructuredKinds.appliesTo_iff, same]
  simp only [typeName?, usesStructured, delivery, delivery', applies]

/-- Elements are left out alike under all options. -/
lemma skip?_alike : o.skip? codename className front e = o'.skip? codename className front e := by
  have typed : ∀ kind, (o.typeName? kind).isSome = (o'.typeName? kind).isSome := fun kind => by
    rw [typeName?_isSome, typeName?_isSome]
  have untyped : ∀ kind, (o.typeName? kind).isNone = (o'.typeName? kind).isNone := fun kind => by
    rw [← Option.not_isSome, typed, Option.not_isSome]
  simp only [skip?, typed, untyped]

lemma property?_congr (same : o.typeName? e.kind = o'.typeName? e.kind) :
    o.property? e = o'.property? e := by
  rw [property?, property?, same]

/-- Two properties are what one of the elements gives under two options, and differ at most in
their types. -/
def GiveAlike (o o' : Options) (elements : List Element) (p q : Property) : Prop :=
  q = { p with typeName := q.typeName } ∧
    ∃ e ∈ elements, o.property? e = some p ∧ o'.property? e = some q

/-- An element that gives a property gives it under all options, up to its type. -/
lemma property?_alike (o' : Options) (h : o.property? e = some p) :
    ∃ typeName, o'.typeName? e.kind = some typeName ∧
      o'.property? e = some { p with typeName := typeName } := by
  obtain ⟨typed, named, -⟩ := property?_eq_some h
  have some : (o'.typeName? e.kind).isSome := by
    rw [typeName?_isSome, ← typeName?_isSome o, typed]
    rfl
  obtain ⟨typeName, typed'⟩ := Option.isSome_iff_exists.mp some
  refine ⟨typeName, typed', ?_⟩
  unfold property? at h ⊢
  rw [typed, named] at h
  rw [typed', named]
  exact congrArg (fun q => Option.some { q with typeName := typeName }) (Option.some.inj h)

/-- Whether an element gives a property does not depend on the options. -/
lemma property?_eq_none (o' : Options) (h : o.property? e = none) : o'.property? e = none := by
  cases given : o'.property? e with
  | none => rfl
  | some q =>
    obtain ⟨typeName, -, absurd⟩ := property?_alike o given
    rw [h] at absurd
    cases absurd

/-- Properties of one element are the same where its kind has the same type under both options. -/
lemma GiveAlike.eq (alike : GiveAlike o o' es p q)
    (same : ∀ kind, o.typeName? kind = o'.typeName? kind) : p = q := by
  obtain ⟨-, e, -, given, given'⟩ := alike
  rw [property?_congr (same e.kind)] at given
  exact Option.some.inj (given.symm.trans given')

lemma GiveAlike.codenames {ps qs : List Property} (rows : List.Forall₂ (GiveAlike o o' es) ps qs) :
    ps.map (·.codename) = qs.map (·.codename) := by
  induction rows with
  | nil => rfl
  | cons head _ ih => rw [List.map_cons, List.map_cons, ih, head.1]

/-- A class has the same properties under all options, up to the types that its elements have. -/
lemma classModel_alike (o o' : Options) (codename : String) (className : Identifier)
    (es : List Element) :
    List.Forall₂ (GiveAlike o o' es) (o.classModel codename className es).properties
      (o'.classModel codename className es).properties := by
  -- From the end: what an element does depends on the codenames that those in front have taken.
  induction es using List.reverseRecOn with
  | nil => exact .nil
  | append_singleton es e ih =>
    have rows : List.Forall₂ (GiveAlike o o' (es ++ [e]))
        (o.classModel codename className es).properties
        (o'.classModel codename className es).properties := by
      refine ih.imp fun p q alike => ?_
      obtain ⟨same, b, mem, given, given'⟩ := alike
      exact ⟨same, b, List.mem_append_left [e] mem, given, given'⟩
    -- Rows that stay in step have taken the same codenames.
    have constants : ∀ c, c ∈ (o.candidates es).map (·.codename) ↔
        c ∈ (o'.candidates es).map (·.codename) := by
      intro c
      rw [← mem_classModel_constants, ← mem_classModel_constants, ← classModel_constants,
        ← classModel_constants, GiveAlike.codenames ih]
    cases h : o.property? e with
    | none =>
      rw [classModel_append_of_none h, classModel_append_of_none (property?_eq_none o' h)]
      exact rows
    | some p =>
      obtain ⟨typeName, -, h'⟩ := property?_alike o' h
      have new : GiveAlike o o' (es ++ [e]) p { p with typeName := typeName } :=
        ⟨rfl, e, List.mem_append_right es List.mem_cons_self, h, h'⟩
      by_cases taken : p.codename ∈ (o.candidates es).map (·.codename)
      · rw [classModel_append_of_taken h taken,
          classModel_append_of_taken h' ((constants _).mp taken)]
        by_cases system : p.isSystem
        · have system' : Property.isSystem { p with typeName := typeName } := system
          rw [if_pos system, if_pos system']
          refine ClassModel.replaceFirst_alike (fun q q' alike => ?_) new rows
          rw [alike.1]
        · have system' : ¬ Property.isSystem { p with typeName := typeName } := system
          rw [if_neg system, if_neg system']
          exact rows
      · rw [classModel_append_of_free h taken,
          classModel_append_of_free h' (fun there => taken ((constants _).mpr there))]
        exact List.rel_append rows (.cons new .nil)

/-- The constants of a class do not depend on the options. -/
lemma classModel_constants_alike (o o' : Options) (codename : String) (className : Identifier)
    (es : List Element) :
    (o.classModel codename className es).constants =
      (o'.classModel codename className es).constants := by
  rw [← classModel_constants, ← classModel_constants,
    GiveAlike.codenames (classModel_alike o o' codename className es)]

/-- The property that a class has behind those of its elements: that with the attributes of an item,
in delivery and where no element gives a property `system`. -/
def implicitBehind (options : Options) (own : List Property) : List Property :=
  if options.dialect = .delivery ∧ "system" ∉ own.map (·.codename) then
    [Property.system "IContentItemSystemAttributes"]
  else []

/-- The implicit property comes behind properties that are given alike, or behind neither. -/
lemma implicitBehind_alike {ps qs : List Property} (dialect : o.dialect = o'.dialect)
    (rows : List.Forall₂ (GiveAlike o o' es) ps qs) :
    o.implicitBehind ps = o'.implicitBehind qs := by
  rw [implicitBehind, implicitBehind, dialect, GiveAlike.codenames rows]

/-- Two properties are what one of the elements gives under two options, and differ at most in their
types. The element is of a structured kind, rich text, a date or linked items, and one of the two
sets asks for its structured type where the other does not. -/
def GiveStructured (o o' : Options) (elements : List Element) (p q : Property) : Prop :=
  q = { p with typeName := q.typeName } ∧
    ∃ e ∈ elements, e.kind ∈ [.richText, .dateTime, .linkedItems] ∧
      ¬ (o.structured.Asks e.kind ↔ o'.structured.Asks e.kind) ∧
      o.property? e = some p ∧ o'.property? e = some q

/-- In delivery, a property differs only where its kind is asked for by one of the sets. -/
lemma GiveAlike.structured (delivery : o.dialect = .delivery) (delivery' : o'.dialect = .delivery)
    (alike : GiveAlike o o' es p q) : p = q ∨ GiveStructured o o' es p q := by
  obtain ⟨types, e, mem, given, given'⟩ := alike
  by_cases same : o.structured.Asks e.kind ↔ o'.structured.Asks e.kind
  · left
    rw [property?_congr (typeName?_of_delivery delivery delivery' same)] at given
    exact Option.some.inj (given.symm.trans given')
  · right
    refine ⟨types, e, mem, ?_, same, given, given'⟩
    by_cases asks : o.structured.Asks e.kind
    · exact asks.mem
    · have asks' : o'.structured.Asks e.kind := by
        by_contra none
        exact same (iff_of_false asks none)
      exact asks'.mem

/-- The implicit properties of a class depend on the properties of its elements. -/
lemma implicitProperties_eq (es : List Element) :
    o.implicitProperties es = o.implicitBehind (o.classModel codename className es).properties := by
  have own : (o.candidates es).any (·.isSystem) ↔
      "system" ∈ (o.classModel codename className es).properties.map (·.codename) := by
    rw [classModel_constants, mem_classModel_constants, List.mem_map]
    simp only [List.any_eq_true, Property.isSystem, beq_iff_eq]
    rfl
  rw [implicitProperties, implicitBehind]
  cases o.dialect with
  | management => rfl
  | delivery =>
    by_cases there : (o.candidates es).any (·.isSystem)
    · rw [if_neg fun absent => absent.2 (own.mp there)]
      simp only [there, if_true, Dialect.systemType?]
    · rw [if_pos ⟨rfl, fun mem => there (own.mpr mem)⟩]
      simp only [there, Dialect.systemType?, Bool.false_eq_true, if_false]

end Options

/-- Two compiled content types have the same classes but for the types of the properties that the
elements give and for the implicit property. -/
structure CompiledContentType.SameButTypes (o o' : Options) (elements : List Element)
    (c c' : CompiledContentType) : Prop where
  typed? : c.typed? = c'.typed?
  sourceCodename : c.model.sourceCodename = c'.model.sourceCodename
  className : c.model.className = c'.model.className
  constants : c.model.constants = c'.model.constants
  properties : ∃ own own', c.model.properties = own ++ o.implicitBehind own ∧
    c'.model.properties = own' ++ o'.implicitBehind own' ∧
    List.Forall₂ (o.GiveAlike o' elements) own own'

/-- Two compiled content types have the same classes but for the types of properties of structured
kinds, where one of the two sets asks for the structured type and the other does not. -/
structure CompiledContentType.SameButStructured (o o' : Options) (elements : List Element)
    (c c' : CompiledContentType) : Prop where
  typed? : c.typed? = c'.typed?
  model : c'.model = { c.model with properties := c'.model.properties }
  properties : List.Forall₂ (fun p q => p = q ∨ o.GiveStructured o' elements p q)
    c.model.properties c'.model.properties

/-- Two compilations have reached classes that the same elements give under the options of each,
with the same typed links. -/
structure Options.InStep (o o' : Options) (codename : String) (className : Identifier)
    (front : List Element) (classes classes' : Classes) : Prop where
  base : classes.base = o.classModel codename className front
  base' : classes'.base = o'.classModel codename className front
  typed : classes.typed = classes'.typed

namespace Element
variable {e : Element} {types : List ContentType} {o o' : Options}

/-- The answer to a link depends on the switch for typed links alone. -/
lemma typedLink_options (links : o.typedLinks = o'.typedLinks) :
    e.typedLink types o = e.typedLink types o' := by
  rw [typedLink, typedLink, links]
  rfl

end Element

namespace Project
variable {project : Project} {o o' : Options} {classes classes' : Classes} {e : Element}
  {type : ContentType} {codename : String} {className : Identifier} {front : List Element}

/-- A typed link does the same to both pairs of classes, as long as their typed classes are the
same. -/
lemma addTypedLink_options (links : o.typedLinks = o'.typedLinks)
    (typed : classes.typed = classes'.typed)
    (name : classes.base.className = classes'.base.className) :
    Reporting.Alike
      (fun g g' => g.base = classes.base ∧ g'.base = classes'.base ∧ g.typed = g'.typed)
      (project.addTypedLink o classes e) (project.addTypedLink o' classes' e) := by
  rw [addTypedLink, addTypedLink, ← Element.typedLink_options links, ← typed, ← name]
  cases e.typedLink project.contentTypes o with
  | ok p? =>
    cases p? with
    | none => exact .pure ⟨rfl, rfl, typed⟩
    | some p =>
      refine (Reporting.Alike.refl (classes.typed.offer p false _)).bind fun answer _ same => ?_
      cases same
      exact .pure ⟨rfl, rfl, rfl⟩
  | error err =>
    cases err with
    | invalidIdentifier => exact .pure ⟨rfl, rfl, typed⟩
    | _ => exact ⟨rfl, .error⟩

/-- One more element keeps the two compilations in step. -/
lemma addElement_options (links : o.typedLinks = o'.typedLinks)
    (inStep : o.InStep o' codename className front classes classes') :
    Reporting.Alike (o.InStep o' codename className (front ++ [e]))
      (project.addElement o classes e) (project.addElement o' classes' e) := by
  obtain ⟨base, base', typed⟩ := inStep
  cases skip : o.skip? codename className front e with
  | some d =>
    rw [addElement_of_skip base skip, addElement_of_skip base' (Options.skip?_alike.trans skip)]
    exact ⟨rfl, .ok ⟨rfl, rfl, typed⟩⟩
  | none =>
    rw [addElement_of_new base skip, addElement_of_new base' (Options.skip?_alike.trans skip),
      ← links]
    split
    case isTrue =>
      refine (addTypedLink_options links ?_ ?_).imp fun g g' same => ?_
      · exact typed
      · rfl
      · obtain ⟨sameBase, sameBase', sameTyped⟩ := same
        exact ⟨sameBase, sameBase', sameTyped⟩
    case isFalse => exact .pure ⟨rfl, rfl, typed⟩

/-- Compilations that end in step have given the same but for the types. -/
lemma sameButTypes_of_inStep {elements : List Element}
    (inStep : o.InStep o' codename className elements classes classes') :
    (addSystem o classes).toCompiled.SameButTypes o o' elements
      (addSystem o' classes').toCompiled := by
  obtain ⟨base, base', typed⟩ := inStep
  constructor
  case typed? =>
    rw [Classes.toCompiled_typed?, Classes.toCompiled_typed?, addSystem_typed, addSystem_typed,
      typed]
  case properties =>
    refine ⟨_, _, ?_, ?_, o.classModel_alike o' codename className elements⟩
    · rw [Classes.toCompiled_model, addSystem_base base, ← Options.implicitProperties_eq]
    · rw [Classes.toCompiled_model, addSystem_base base', ← Options.implicitProperties_eq]
  all_goals rw [Classes.toCompiled_model, Classes.toCompiled_model, addSystem_base base,
    addSystem_base base']
  case sourceCodename => rfl
  case className => rfl
  case constants => exact o.classModel_constants_alike o' codename className elements

/-- A content type is compiled alike under both options: with the same diagnostics, and to the same
but for the types. -/
lemma compileContentType_options (links : o.typedLinks = o'.typedLinks) (type : ContentType) :
    Reporting.Alike (Option.Rel
        (CompiledContentType.SameButTypes o o' (type.expanded project.snippets)))
      (project.compileContentType o type) (project.compileContentType o' type) := by
  cases named : Identifier.ofText? type.codename with
  | none =>
    rw [compileContentType_of_unnamed named, compileContentType_of_unnamed named]
    exact ⟨rfl, .ok .none⟩
  | some className =>
    by_cases complete : ∀ e ∈ type.elements, ¬ e.LacksSnippet project.snippets
    · rw [compileContentType_of_complete named complete,
        compileContentType_of_complete named complete]
      have rows : Reporting.Alike
          (o.InStep o' type.codename className ([] ++ type.expanded project.snippets))
          ((type.expanded project.snippets).foldlM (project.addElement o)
            (Classes.ofClassName type.codename className))
          ((type.expanded project.snippets).foldlM (project.addElement o')
            (Classes.ofClassName type.codename className)) :=
        .foldlM (fun _ _ _ _ => addElement_options links) ⟨rfl, rfl, rfl⟩
      exact rows.bind fun classes classes' inStep => .pure (.some (sameButTypes_of_inStep inStep))
    · have lacking : ∃ e ∈ type.elements, e.LacksSnippet project.snippets := by
        simpa using complete
      obtain ⟨front, e, back, split, before, lacks⟩ := exists_first lacking
      rw [compileContentType_of_lacks named split before lacks,
        compileContentType_of_lacks named split before lacks]
      exact ⟨rfl, .error⟩

/-- Two compiled content types are what one content type of the project gives under two options, and
are related by its elements. -/
def FromOneType (project : Project) (o o' : Options)
    (R : List Element → CompiledContentType → CompiledContentType → Prop)
    (c c' : CompiledContentType) : Prop :=
  ∃ type ∈ project.contentTypes,
    (project.compileContentType o type).result = .ok (some c) ∧
      (project.compileContentType o' type).result = .ok (some c') ∧
      R (type.expanded project.snippets) c c'

lemma FromOneType.imp {R S : List Element → CompiledContentType → CompiledContentType → Prop}
    {c c' : CompiledContentType} (one : project.FromOneType o o' R c c')
    (weaker : ∀ es, R es c c' → S es c c') : project.FromOneType o o' S c c' := by
  obtain ⟨type, mem, ran, ran', related⟩ := one
  exact ⟨type, mem, ran, ran', weaker _ related⟩

/-- A project is compiled alike under options that agree on typed links. -/
lemma compile_alike (links : o.typedLinks = o'.typedLinks) :
    Reporting.Alike
      (List.Forall₂ (project.FromOneType o o' (CompiledContentType.SameButTypes o o')))
      (project.compile o) (project.compile o') := by
  have rows : List.Forall₂ (fun type type' => Reporting.Alike
      (Option.Rel (project.FromOneType o o' (CompiledContentType.SameButTypes o o')))
      (project.compileContentType o type) (project.compileContentType o' type'))
      project.contentTypes project.contentTypes := by
    refine List.forall₂_same.mpr fun type mem => ?_
    have alike : Reporting.Alike _ (project.compileContentType o type)
      (project.compileContentType o' type) := compileContentType_options links type
    refine ⟨alike.reported, alike.result.results.imp fun c? c?' row => ?_⟩
    obtain ⟨ran, ran', same⟩ := row
    cases same with
    | none => exact .none
    | some same => exact .some ⟨type, mem, ran, ran', same⟩
  exact (Reporting.Alike.mapM rows).bind fun results results' same =>
    .pure (List.rel_filterMap (fun _ _ related => related) same)

end Project

namespace CompiledContentType.SameButTypes
variable {o o' : Options} {elements : List Element} {c c' : CompiledContentType}

/-- Of the class only the properties can differ. -/
lemma model_eq (same : c.SameButTypes o o' elements c') :
    c'.model = { c.model with properties := c'.model.properties } := by
  obtain ⟨-, sourceCodename, className, constants, -⟩ := same
  show c'.model =
    ⟨c.model.sourceCodename, c.model.className, c'.model.properties, c.model.constants⟩
  rw [sourceCodename, className, constants]

lemma structured (same : c.SameButTypes o o' elements c') (delivery : o.dialect = .delivery)
    (delivery' : o'.dialect = .delivery) : c.SameButStructured o o' elements c' := by
  refine ⟨same.typed?, same.model_eq, ?_⟩
  obtain ⟨own, own', left, right, rows⟩ := same.properties
  rw [left, right, Options.implicitBehind_alike (delivery.trans delivery'.symm) rows]
  refine List.rel_append (rows.imp fun p q alike => alike.structured delivery delivery') ?_
  exact List.forall₂_same.mpr fun p _ => .inl rfl

lemma eq_of_management (same : c.SameButTypes o o' elements c')
    (management : o.dialect = .management) (management' : o'.dialect = .management) :
    c = c' := by
  obtain ⟨own, own', left, right, rows⟩ := same.properties
  have sameTypes : ∀ kind, o.typeName? kind = o'.typeName? kind := fun kind => by
    rw [Options.typeName?_of_management management, Options.typeName?_of_management management']
  have sameRows : own = own' :=
    List.forall₂_eq_eq_eq ▸ rows.imp fun p q alike => alike.eq sameTypes
  have properties : c.model.properties = c'.model.properties := by
    rw [left, right, Options.implicitBehind_alike (management.trans management'.symm) rows,
      sameRows]
  have models : c'.model = c.model := by
    rw [same.model_eq, ← properties]
  obtain ⟨model, typed?⟩ := c
  exact CompiledContentType.mk.injEq .. ▸ ⟨models.symm, same.typed?⟩

end CompiledContentType.SameButTypes

namespace Project

/-- The dialect and the structured kinds choose the types of properties. Two compilations of a
project with the same setting of typed links report the same, and fail with the same error or give
the same classes but for the types of properties and for the implicit property of delivery. In
delivery, only structured kinds that one of the sets asks for and the other does not make a
difference, and in management nothing does. -/
theorem compile_chooses_types (project : Project) (typedLinks : Bool) :
    (∀ dialect dialect' kinds kinds',
      let o : Options := ⟨dialect, kinds, typedLinks⟩
      let o' : Options := ⟨dialect', kinds', typedLinks⟩
      Reporting.Alike
        (List.Forall₂ (project.FromOneType o o' (CompiledContentType.SameButTypes o o')))
        (project.compile o) (project.compile o')) ∧
      (∀ kinds kinds',
        let o : Options := ⟨.delivery, kinds, typedLinks⟩
        let o' : Options := ⟨.delivery, kinds', typedLinks⟩
        Reporting.Alike
          (List.Forall₂ (project.FromOneType o o' (CompiledContentType.SameButStructured o o')))
          (project.compile o) (project.compile o')) ∧
      ∀ kinds kinds',
        project.compile ⟨.management, kinds, typedLinks⟩ =
          project.compile ⟨.management, kinds', typedLinks⟩ := by
  refine ⟨fun _ _ _ _ => compile_alike rfl, fun kinds kinds' => ?_, fun kinds kinds' => ?_⟩
  · intro o o'
    have alike : Reporting.Alike _ (project.compile o) (project.compile o') := compile_alike rfl
    refine alike.imp fun _ _ rows => rows.imp fun _ _ one => ?_
    exact one.imp fun _ same => same.structured rfl rfl
  · have alike : Reporting.Alike _ (project.compile ⟨.management, kinds, typedLinks⟩)
      (project.compile ⟨.management, kinds', typedLinks⟩) := compile_alike rfl
    refine (alike.imp fun cs cs' rows => ?_).eq
    refine List.forall₂_eq_eq_eq ▸ rows.imp fun c c' one => ?_
    obtain ⟨type, -, -, -, same⟩ := one
    exact same.eq_of_management rfl rfl

end Project

end ContentClasses
