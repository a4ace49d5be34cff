import ContentClasses.Proofs.LinkedRuns
import ContentClasses.Proofs.EntryPoints

/-!
# Generations without a class

Every content type of a schema gives a class or one diagnostic that says that it was skipped, so the
two add up to the content types that were read. Where no class comes of any of them, one diagnostic
more ends the report, no file is rendered and nothing is written:
`Generation.empty_result_reported`.
-/

namespace ContentClasses

open Files (Workspace)

namespace Text

/-- Nothing is left by trimming when all characters are blank. -/
lemma trimChars_eq_nil_iff {cs : List Char} : trimChars cs = [] ↔ ∀ c ∈ cs, isBlank c := by
  rw [trimChars, List.reverse_eq_nil_iff, List.dropWhile_eq_nil_iff]
  constructor
  · intro rest c mem
    rw [← List.takeWhile_append_dropWhile (p := isBlank) (l := cs), List.mem_append] at mem
    obtain front | back := mem
    · exact List.mem_takeWhile_imp front
    · exact rest c (List.mem_reverse.mpr back)
  · intro blank c mem
    exact blank c ((List.dropWhile_sublist isBlank).subset (List.mem_reverse.mp mem))

/-- A text is blank exactly when nothing is left of it without the blank characters at its ends. -/
lemma trim_eq_empty_iff {s : String} : trim s = "" ↔ isBlankText s := by
  rw [trim, String.ofList_eq_empty_iff, trimChars_eq_nil_iff, isBlankText, List.all_eq_true]

end Text

lemma Diagnostics.count_append (front back : List Diagnostic) (code : Diagnostic.Code) :
    count ⟨front ++ back⟩ code = count ⟨front⟩ code + count ⟨back⟩ code :=
  List.countP_append

/-- A diagnostic says neither that a content type was skipped nor that there is no class: it is
about an element. -/
def Diagnostic.IsOfElement (d : Diagnostic) : Prop :=
  d.code ∉ [.skippedContentType, .noContentTypes]

lemma Diagnostic.IsOfElement.code_ne {d : Diagnostic} (isOfElement : d.IsOfElement) :
    d.code ≠ .skippedContentType ∧ d.code ≠ .noContentTypes := by
  simpa [IsOfElement] using isOfElement

lemma Diagnostic.isOfElement_duplicateElement (className codename : String) :
    (duplicateElement className codename).IsOfElement := by
  simp [IsOfElement, duplicateElement]

namespace Project
variable {project : Project} {options : Options} {type : ContentType} {codename : String}
  {className : Identifier} {front es : List Element} {e : Element}
  {c? : Option CompiledContentType} {compiled : List CompiledContentType}

/-- What is reported of an element that is skipped is about it. -/
lemma isOfElement_of_skip? {d : Diagnostic}
    (skip : options.skip? codename className front e = some d) : d.IsOfElement := by
  unfold Options.skip? at skip
  split at skip
  · cases skip
    simp [Diagnostic.IsOfElement, Diagnostic.unknownElementType]
  split at skip
  · cases skip
    simp [Diagnostic.IsOfElement, Diagnostic.invalidElementIdentifier]
  split at skip
  · cases skip
    exact Diagnostic.isOfElement_duplicateElement _ _
  · cases skip

/-- What is reported behind the name of a class is about its elements. -/
lemma isOfElement_of_mem {entry : Entry}
    (mem : entry ∈ project.rowEntries options codename className front es) :
    entry.diagnostic.IsOfElement := by
  obtain ⟨seen, e, own⟩ := exists_of_mem_rowEntries mem
  rw [elementEntries, List.mem_append, List.mem_map, List.mem_flatMap] at own
  obtain ⟨d, skipped, rfl⟩ | ⟨p, -, answered⟩ := own
  · exact isOfElement_of_skip? (Option.mem_toList.mp skipped)
  · obtain ⟨d, reported, rfl⟩ := List.mem_map.mp answered
    rw [ClassModel.eq_of_mem_offer reported]
    exact Diagnostic.isOfElement_duplicateElement _ _

/-- A content type that is compiled reports about its elements alone. -/
lemma isOfElement_of_named (named : Identifier.ofText? type.codename = some className)
    (own : (project.compileContentType options type).result = .ok c?) :
    ∀ d ∈ (project.compileContentType options type).reported, d.IsOfElement := by
  intro d mem
  rw [compileContentType_entries own, typeEntries, named] at mem
  obtain ⟨entry, inside, rfl⟩ := List.mem_map.mp mem
  exact isOfElement_of_mem inside

/-- A content type gives a class, or is reported once as skipped. -/
lemma class_or_skip (own : (project.compileContentType options type).result = .ok c?) :
    c?.toList.length +
      Diagnostics.count ⟨(project.compileContentType options type).reported⟩
        .skippedContentType = 1 := by
  cases named : Identifier.ofText? type.codename with
  | none =>
    rw [compileContentType_of_unnamed named] at own ⊢
    cases own
    rfl
  | some className =>
    have none : Diagnostics.count ⟨(project.compileContentType options type).reported⟩
        .skippedContentType = 0 := by
      rw [Diagnostics.count, List.countP_eq_zero]
      intro d mem
      rw [beq_iff_eq]
      exact (isOfElement_of_named named own d mem).code_ne.1
    have same := className_of_ok own
    rw [named] at same
    obtain ⟨c, rfl, -⟩ := Option.map_eq_some_iff.mp same
    rw [none]
    rfl

/-- In a row of content types, the classes and the reports of skipping are as many as these. -/
lemma classes_and_skips {types : List ContentType} {results : List (Option CompiledContentType)}
    (rows : List.Forall₂ (fun type c? => (project.compileContentType options type).result = .ok c?)
      types results) :
    results.reduceOption.length +
      Diagnostics.count
        ⟨types.flatMap fun type => (project.compileContentType options type).reported⟩
        .skippedContentType = types.length := by
  induction rows with
  | nil => rfl
  | @cons type c? types results own _ ih =>
    have one := class_or_skip own
    have first : (c? :: results).reduceOption.length =
        c?.toList.length + results.reduceOption.length := by
      rw [← List.length_append]
      cases c? <;> rfl
    rw [first, List.flatMap_cons, Diagnostics.count_append, List.length_cons]
    omega

/-- A compilation that succeeds has as many classes and reports of skipping as content types. -/
lemma compiled_and_skipped (h : (project.compile options).result = .ok compiled) :
    compiled.length + Diagnostics.count ⟨(project.compile options).reported⟩ .skippedContentType =
      project.contentTypes.length := by
  obtain ⟨reported, results, rfl, rows⟩ := compile_eq_ok h
  rw [reported]
  exact classes_and_skips rows

/-- A compilation that succeeds does not say itself that it is empty. -/
lemma code_ne_of_mem_compile (h : (project.compile options).result = .ok compiled) :
    ∀ d ∈ (project.compile options).reported, d.code ≠ .noContentTypes := by
  intro d mem
  rw [(compile_eq_ok h).1] at mem
  obtain ⟨type, there, reported⟩ := List.mem_flatMap.mp mem
  obtain ⟨c?, own, -⟩ := compileContentType_of_compile h there
  cases named : Identifier.ofText? type.codename with
  | none =>
    rw [compileContentType_of_unnamed named] at reported
    rw [List.mem_singleton.mp reported]
    simp [Diagnostic.skippedContentType]
  | some className => exact (isOfElement_of_named named own d reported).code_ne.2

/-- A compilation is empty exactly when no content type has a class name. -/
lemma compiled_eq_nil_iff (h : (project.compile options).result = .ok compiled) :
    compiled = [] ↔ ∀ type ∈ project.contentTypes, Identifier.ofText? type.codename = none := by
  rw [← List.map_eq_nil_iff (f := fun c : CompiledContentType => c.model.className),
    classNames_of_compile h, List.filterMap_eq_nil_iff]

end Project

/-- The content types of a schema that is read are those of its source. -/
lemma SchemaSource.contentTypes_of_project {source : SchemaSource} {w : Workspace}
    {project : Project} (h : source.project w = .ok project) :
    source.contentTypes w = .ok project.contentTypes := by
  obtain ⟨types, given, more⟩ := bind_eq_ok.mp h
  obtain ⟨snippets, -, both⟩ := bind_eq_ok.mp more
  cases both
  exact given

namespace Generation
variable {g : Generation} {w : Workspace} {compiled : List CompiledContentType}

/-- A project goes by its id, or by the directory of its schema where the id is blank. -/
lemma projectLabel_eq :
    g.projectLabel =
      if Text.trim g.config.projectId = "" then g.config.schemaDir.text
      else g.config.projectId := by
  rw [projectLabel]
  simp only [Text.trim_eq_empty_iff]

/-- Where a generation compiles, the classes and the reports of skipping are as many as the content
types of its schema, and no class is compiled exactly when no codename gives a name for one. In that
case the report ends with the one diagnostic that says so, with the id of the project or, where this
is blank, the directory of the schema; no file is rendered, and a run succeeds without writing
anything. In the other case there is no such diagnostic. -/
theorem empty_result_reported (h : (g.compile w).result = .ok compiled) :
    let reported := (g.compile w).reported
    ∃ types, g.source.contentTypes w = .ok types ∧
      compiled.length + Diagnostics.count ⟨reported⟩ .skippedContentType = types.length ∧
      (compiled = [] ↔ ∀ type ∈ types, Identifier.ofText? type.codename = none) ∧
      (compiled = [] →
        (∃ front,
          reported = front ++ [.noContentTypes
            (if Text.trim g.config.projectId = "" then g.config.schemaDir.text
              else g.config.projectId)] ∧
          ∀ d ∈ front, d.code ≠ .noContentTypes) ∧
        g.render w = ⟨reported, .ok []⟩ ∧
        g.run w = (.ok { contentTypes := 0, paths := [], diagnostics := reported }, w) ∧
        g.forward w = (⟨reported, .ok []⟩, w)) ∧
      (compiled ≠ [] → ∀ d ∈ reported, d.code ≠ .noContentTypes) := by
  intro reported
  obtain ⟨options, project, -, loaded, ran, whole⟩ := exists_compilation h
  have others := Project.code_ne_of_mem_compile ran
  refine ⟨project.contentTypes, SchemaSource.contentTypes_of_project loaded, ?_,
    Project.compiled_eq_nil_iff ran, ?_, ?_⟩
  · rw [← Project.compiled_and_skipped ran]
    congr 1
    show Diagnostics.count ⟨(g.compile w).reported⟩ _ = _
    rw [whole, Diagnostics.count_append, Nat.add_eq_left]
    split <;> rfl
  · rintro rfl
    have split :
        reported = (project.compile options).reported ++ [.noContentTypes g.projectLabel] :=
      congrArg Reporting.reported whole
    have result : g.compile w = ⟨reported, .ok []⟩ := congrArg (Reporting.mk reported) h
    rw [← projectLabel_eq]
    exact ⟨⟨_, split, others⟩, render_of_compiled result, run_of_compiled result,
      forward_of_compiled result⟩
  · intro full
    -- With a class among the results nothing is added to what the compilation reports.
    have same : reported = (project.compile options).reported := by
      show (g.compile w).reported = _
      rw [whole, if_neg (full ∘ List.isEmpty_iff.mp), List.append_nil]
    rwa [same]

/-- A generation with a lookup, of a project without an id, for content types with the given
codenames. -/
def bulletin (codenames : List String) : Generation where
  config := { projectId := "\u3000", schemaDir := ⟨"exports/acme"⟩, withTypeProvider := true }
  source := .given {
    contentTypes := codenames.map fun codename => { id := codename, codename, name := codename }
    snippets := [] }
  dryRun := false

/-- Two codenames without a letter in front give nothing but three diagnostics, of which the last
names the directory of the schema. With a name for one of the content types, there is a class, and
one diagnostic for the other. -/
theorem bulletin_result_reported :
    let w : Workspace := ⟨.dir [], []⟩
    let skips : List Diagnostic := [.skippedContentType "$^123", .skippedContentType "1st"]
    let all := skips ++ [.noContentTypes "exports/acme"]
    (bulletin ["$^123", "1st"]).render w = ⟨all, .ok []⟩ ∧
      (bulletin ["$^123", "1st"]).run w =
        (.ok { contentTypes := 0, paths := [], diagnostics := all }, w) ∧
      ∃ c, ((bulletin ["$^123", "news"]).compile w).result = .ok [c] ∧
        Diagnostics.count ⟨((bulletin ["$^123", "news"]).compile w).reported⟩
          .skippedContentType = 1 ∧
        ∀ d ∈ ((bulletin ["$^123", "news"]).compile w).reported, d.code ≠ .noContentTypes := by
  intro w skips all
  have empty : ((bulletin ["$^123", "1st"]).compile w).result = .ok [] := by decide
  have reported : ((bulletin ["$^123", "1st"]).compile w).reported = all := by decide
  obtain ⟨-, -, -, -, nothing, -⟩ := empty_result_reported empty
  obtain ⟨-, rendered, ran, -⟩ := nothing rfl
  rw [reported] at rendered ran
  refine ⟨rendered, ran, ?_⟩
  have fine : ∃ compiled ∈ ((bulletin ["$^123", "news"]).compile w).result.toOption,
      compiled.length = 1 := by
    decide
  obtain ⟨compiled, made, one⟩ := exists_eq_ok fine
  obtain ⟨c, rfl⟩ := List.length_eq_one_iff.mp one
  obtain ⟨types, given, count, -, -, others⟩ := empty_result_reported made
  cases given
  refine ⟨c, made, ?_, others (List.cons_ne_nil c [])⟩
  exact Nat.add_left_cancel (count.trans (Nat.add_comm 1 1))

end Generation

end ContentClasses
