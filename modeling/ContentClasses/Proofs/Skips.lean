import ContentClasses.Proofs.BaseModel

/-!
# Elements that are left out

An element that is reported as left out leaves both classes of its content type as they are, with
one exception: a repeated `system` is reported as a duplicate and yet takes the place of the one
before it. `Project.skipped_unchanged_iff` gives the exact condition.
-/

namespace ContentClasses

namespace Options
variable {options : Options} {codename : String} {className : Identifier}
  {front : List Element} {e : Element} {p : Property} {d : Diagnostic}

/-- An element that is left out changes the class only where it replaces the property `system` by
another one. -/
lemma classModel_skip_iff (skip : options.skip? codename className front e = some d) :
    options.classModel codename className (front ++ [e]) =
        options.classModel codename className front ↔
      ¬ ∃ p, options.property? e = some p ∧ p.isSystem ∧
        (options.classModel codename className front).property? p.codename ≠ some p := by
  obtain h | ⟨p, h, taken, -⟩ := cases_of_skip? skip
  · simp [classModel_append_of_none h, h]
  · have there : p.codename ∈
        (options.classModel codename className front).properties.map (·.codename) := by
      rw [classModel_constants]
      exact mem_classModel_constants.mpr taken
    rw [classModel_append_of_taken h taken, h]
    by_cases system : p.isSystem
    · simp only [system, if_true, Option.some.injEq, exists_eq_left', true_and, not_not]
      constructor
      · intro same
        have replaced := congrArg ClassModel.properties same
        rw [ClassModel.property?, ← replaced]
        exact ClassModel.find?_replaceFirst_self there
      · intro found
        rw [ClassModel.replaceFirst_of_find? found]
    · simp [system]

/-- An element that is left out adds and takes away no constant, and leaves the properties of all
codenames but `system` as they are. -/
lemma classModel_skip_frame (skip : options.skip? codename className front e = some d) :
    (options.classModel codename className (front ++ [e])).constants =
        (options.classModel codename className front).constants ∧
      ∀ c ≠ Property.systemCodename,
        (options.classModel codename className (front ++ [e])).property? c =
          (options.classModel codename className front).property? c := by
  obtain h | ⟨p, h, taken, -⟩ := cases_of_skip? skip
  · simp [classModel_append_of_none h]
  · rw [classModel_append_of_taken h taken]
    refine ⟨rfl, fun c hc => ?_⟩
    by_cases system : p.isSystem
    · rw [← eq_of_beq system] at hc
      simp only [system, if_true]
      exact ClassModel.find?_replaceFirst_of_ne hc
    · simp only [system, Bool.false_eq_true, if_false]

end Options

namespace Project
variable {project : Project} {options : Options} {codename : String} {className : Identifier}
  {classes : Classes} {front : List Element} {e : Element}

/-- In every state that a compilation reaches, an element that is left out is reported and nothing
else is; the class for typed links, all constants and all properties but `system` stay as they
are, and the classes are the same as before unless the element gives a property `system` that
differs from the one there. Any other element adds its property and a constant for it. -/
theorem skipped_unchanged_iff
    (reached : (front.foldlM (project.addElement options)
      (Classes.ofClassName codename className)).result = .ok classes) :
    match options.skip? codename className front e with
    | some d =>
      ∃ after, project.addElement options classes e = ⟨[d], .ok after⟩ ∧
        after.typed = classes.typed ∧
        after.base.constants = classes.base.constants ∧
        (∀ c ≠ Property.systemCodename, after.base.property? c = classes.base.property? c) ∧
        (after = classes ↔
          ¬ ∃ p, options.property? e = some p ∧ p.isSystem ∧
            classes.base.property? p.codename ≠ some p)
    | none =>
      ∃ p, options.property? e = some p ∧
        ∀ after, (project.addElement options classes e).result = .ok after →
          after.base = { classes.base with
            properties := classes.base.properties ++ [p]
            constants := classes.base.constants ++ [p.codename] } := by
  have base := reached_base reached
  split
  case h_1 d skip =>
    -- The class that has been reached is that of the elements seen so far, for which all is known.
    refine ⟨_, addElement_of_skip base skip, rfl, ?_, ?_, ?_⟩
    · rw [base]
      exact (Options.classModel_skip_frame skip).1
    · rw [base]
      exact (Options.classModel_skip_frame skip).2
    · rw [base, ← Options.classModel_skip_iff skip, ← base]
      constructor
      · exact fun same => congrArg Classes.base same
      · intro same
        rw [same]
  case h_2 new =>
    obtain ⟨p, h, free⟩ := Options.skip?_eq_none.mp new
    refine ⟨p, h, fun after step => ?_⟩
    rw [addElement_base base step, base]
    exact Options.classModel_append_of_free h free

/-- A second title of another kind leaves both classes as they are. -/
theorem repeated_title_unchanged :
    let front : List Element := [{ codename := "title", kind := .text }]
    let start := Classes.ofClassName "article" ⟨"Article"⟩
    ∃ classes after, (front.foldlM (magazine.addElement {}) start).result = .ok classes ∧
      magazine.addElement {} classes { codename := "title", kind := .number } =
        ⟨[.duplicateElement "Article" "title"], .ok after⟩ ∧ after = classes := by
  intro front start
  have reached : (front.foldlM (magazine.addElement {}) start).result = .ok {
      start with base := { start.base with
        properties := [{ codename := "title", identifier := ⟨"Title"⟩, typeName := "string" }]
        constants := ["title"] } } := by rfl
  have step := skipped_unchanged_iff (e := { codename := "title", kind := .number }) reached
  have skip : Options.skip? {} "article" ⟨"Article"⟩ front
      { codename := "title", kind := .number } =
        some (.duplicateElement "Article" "title") := by decide
  simp only [skip] at step
  obtain ⟨after, ran, -, -, -, same⟩ := step
  refine ⟨_, after, reached, ran, same.mpr ?_⟩
  rintro ⟨p, given, system, -⟩
  have codename : p.codename = "title" := (Options.property?_eq_some given).2.2
  simp [Property.isSystem, codename, Property.systemCodename] at system

/-- A second `system` of another kind is reported as a duplicate, and yet is not without a trace. -/
theorem repeated_system_replaced :
    let first : Element := { codename := "system", kind := .text }
    let second : Element := { codename := "system", kind := .number }
    let start := Classes.ofClassName "article" ⟨"Article"⟩
    ∃ classes after, ([first].foldlM (magazine.addElement {}) start).result = .ok classes ∧
      magazine.addElement {} classes second =
        ⟨[.duplicateElement "Article" "system"], .ok after⟩ ∧ after ≠ classes := by
  refine ⟨_, _, rfl, rfl, ?_⟩
  decide

end Project

end ContentClasses
