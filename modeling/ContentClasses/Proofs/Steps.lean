import ContentClasses.Proofs.Elements
import ContentClasses.Proofs.Rows

/-!
# Adding elements

What one step of a compilation does to the classes of a content type, and from it what a whole row
of elements does: the base class is always the one that the elements so far give, whatever is added
to the class for typed links.
-/

namespace ContentClasses

lemma Classes.ofClassName_base {options : Options} {codename : String} {className : Identifier} :
    (ofClassName codename className).base = options.classModel codename className [] :=
  rfl

namespace Project
variable {project : Project} {options : Options} {codename : String} {className : Identifier}
  {classes grown : Classes} {front : List Element} {e : Element} {p : Property} {d : Diagnostic}

/-- A typed link leaves the class of the elements alone. -/
lemma addTypedLink_base (h : (project.addTypedLink options classes e).result = .ok grown) :
    grown.base = classes.base := by
  unfold addTypedLink at h
  cases link : e.typedLink project.contentTypes options with
  | ok p? =>
    cases p? with
    | none =>
      rw [link] at h
      cases h
      rfl
    | some p =>
      obtain ⟨answer, added⟩ := classes.typed.offer_result p classes.base.className.text
      simp only [link, Reporting.bind_of_ok added] at h
      cases h
      rfl
  | error err =>
    rw [link] at h
    cases err <;> cases h
    rfl

/-- An element without a property is reported, and leaves the classes as they are. -/
lemma addElement_of_none (base : classes.base = options.classModel codename className front)
    (h : options.property? e = none) (skip : options.skip? codename className front e = some d) :
    project.addElement options classes e = ⟨[d], .ok classes⟩ := by
  rw [Options.skip?_of_none h] at skip
  cases htype : options.typeName? e.kind with
  | none =>
    simp only [htype, Option.isNone_none, if_true, Option.some.injEq] at skip
    simp only [addElement, Options.typeName, htype, base, ← skip]
    rfl
  | some typeName =>
    simp only [htype, Option.isNone_some, Bool.false_eq_true, if_false, Option.some.injEq] at skip
    have unnamed : Identifier.ofText? e.codename = none := by
      rw [← Option.not_isSome_iff_eq_none]
      intro named
      have some := Options.property?_isSome.mpr ⟨by rw [htype]; rfl, named⟩
      rw [h] at some
      cases some
    have failed : Property.ofElement e typeName = .error (.invalidIdentifier e.codename) := by
      rw [Property.ofElement, Identifier.ofText, unnamed]
      rfl
    simp only [addElement, Options.typeName, htype, failed, base, ← skip]
    rfl

/-- An element with a property adds it to the class and then looks at its link. -/
lemma addElement_of_some (h : options.property? e = some p) :
    project.addElement options classes e = project.addBase options classes e p := by
  obtain ⟨typed, named, -⟩ := Options.property?_eq_some h
  have made : Property.ofElement e p.typeName = .ok p := by
    rw [Property.ofElement, Identifier.ofText, named]
    unfold Options.property? at h
    rw [typed, named] at h
    exact congrArg Except.ok (Option.some.inj h)
  simp only [addElement, Options.typeName, typed, made]

/-- An element that is left out is reported, and that is all that is reported. The base class is
the one that the elements with it give. -/
lemma addElement_of_skip (base : classes.base = options.classModel codename className front)
    (skip : options.skip? codename className front e = some d) :
    project.addElement options classes e =
      ⟨[d], .ok { classes with base := options.classModel codename className (front ++ [e]) }⟩ := by
  obtain h | ⟨p, h, taken, rfl⟩ := Options.cases_of_skip? skip
  · rw [addElement_of_none base h skip, Options.classModel_append_of_none h, ← base]
  · have there : p.codename ∈ classes.base.properties.map (·.codename) := by
      rw [base, Options.classModel_constants]
      exact Options.mem_classModel_constants.mpr taken
    have named : p.codename ∈ classes.base.constants := by
      rw [base]
      exact Options.mem_classModel_constants.mpr taken
    rw [addElement_of_some h, addBase, ClassModel.offer_of_taken there named, Reporting.ok_bind,
      Options.classModel_append_of_taken h taken, ← base, (Options.property?_eq_some h).2.2, base]
    rfl

/-- An element that is not left out adds its property to the base class. What else it does is
what its typed link does. -/
lemma addElement_of_new (base : classes.base = options.classModel codename className front)
    (new : options.skip? codename className front e = none) :
    project.addElement options classes e =
      if options.typedLinks && e.kind.isItemReference then
        project.addTypedLink options
          { classes with base := options.classModel codename className (front ++ [e]) } e
      else pure { classes with base := options.classModel codename className (front ++ [e]) } := by
  obtain ⟨p, h, free⟩ := Options.skip?_eq_none.mp new
  have absent : p.codename ∉ classes.base.properties.map (·.codename) := by
    rw [base, Options.classModel_constants, Options.mem_classModel_constants]
    exact free
  have unnamed : p.codename ∉ classes.base.constants := by
    rw [base, Options.mem_classModel_constants]
    exact free
  rw [addElement_of_some h, addBase, ClassModel.offer_of_free absent unnamed, Reporting.ok_bind,
    Options.classModel_append_of_free h free, ← base]
  rfl

/-- After one more element, the class is that of the elements up to it. -/
lemma addElement_base (base : classes.base = options.classModel codename className front)
    (h : (project.addElement options classes e).result = .ok grown) :
    grown.base = options.classModel codename className (front ++ [e]) := by
  cases skip : options.skip? codename className front e with
  | some d =>
    rw [addElement_of_skip base skip] at h
    cases h
    rfl
  | none =>
    rw [addElement_of_new base skip] at h
    split at h
    case isTrue => exact addTypedLink_base h
    case isFalse =>
      cases h
      rfl

/-- A row of elements takes the base class that the elements in front give to the one with all of
the row. -/
lemma foldlM_addElement_base {es : List Element}
    (base : classes.base = options.classModel codename className front)
    (h : (es.foldlM (project.addElement options) classes).result = .ok grown) :
    grown.base = options.classModel codename className (front ++ es) := by
  induction es generalizing front classes with
  | nil =>
    cases h
    rw [base, List.append_nil]
  | cons e es ih =>
    rw [List.foldlM_cons] at h
    obtain ⟨next, step, rest⟩ := Reporting.result_bind_eq_ok.mp h
    rw [ih (addElement_base base step) rest, List.append_assoc, List.singleton_append]

/-- The classes that are reached by adding elements to empty ones have the base class that these
elements give. -/
lemma reached_base
    (reached : (front.foldlM (project.addElement options)
      (Classes.ofClassName codename className)).result = .ok classes) :
    classes.base = options.classModel codename className front :=
  foldlM_addElement_base Classes.ofClassName_base reached

end Project

end ContentClasses
