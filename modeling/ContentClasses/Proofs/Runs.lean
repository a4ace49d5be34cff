import ContentClasses.Proofs.BaseModel

/-!
# Runs

A compilation of a project by those of its content types. Where it succeeds, it gives a class for
each content type that has a class name, and no other.
-/

namespace ContentClasses

namespace Project
variable {project : Project} {options : Options} {type : ContentType} {className : Identifier}
  {c : CompiledContentType} {compiled : List CompiledContentType}

/-- A compilation that succeeds reports what its content types report, and gives what they give
but for those that are left out. -/
lemma compile_eq_ok (h : (project.compile options).result = .ok compiled) :
    (project.compile options).reported =
        project.contentTypes.flatMap
          (fun type => (project.compileContentType options type).reported) ∧
      ∃ results, compiled = results.reduceOption ∧
        List.Forall₂ (fun type c? => (project.compileContentType options type).result = .ok c?)
          project.contentTypes results := by
  rw [compile] at h ⊢
  obtain ⟨results, row, made⟩ := Reporting.result_bind_eq_ok.mp h
  cases made
  refine ⟨?_, results, rfl, ?_⟩
  · rw [Reporting.bind_of_ok row, Reporting.reported_mapM row, Reporting.reported_pure,
      List.append_nil]
  · rw [Reporting.result_mapM] at row
    exact mapM_eq_ok.mp row

/-- What a content type on its own is compiled to, if it is neither left out nor a failure. -/
def outcome? (project : Project) (options : Options) (type : ContentType) :
    Option CompiledContentType :=
  (project.compileContentType options type).result.toOption.join

/-- The outcome of a content type is what comes of compiling it alone. -/
lemma outcome?_of_ok {c? : Option CompiledContentType}
    (own : (project.compileContentType options type).result = .ok c?) :
    project.outcome? options type = c? := by
  rw [outcome?, own]
  cases c? <;> rfl

/-- The results of a row of content types without a failure are those of each on its own. -/
lemma mapM_compileContentType_of_fine {types : List ContentType}
    (fine : ∀ type ∈ types, ∃ c?, (project.compileContentType options type).result = .ok c?) :
    (types.mapM (project.compileContentType options)).result =
      .ok (types.map (project.outcome? options)) := by
  rw [Reporting.result_mapM, mapM_eq_ok, List.forall₂_map_right_iff, List.forall₂_same]
  intro type mem
  obtain ⟨c?, own⟩ := fine type mem
  rw [outcome?_of_ok own]
  exact own

/-- A compilation without a failure is the row of its content types, each compiled on its own. -/
lemma compile_of_fine
    (fine : ∀ type ∈ project.contentTypes,
      ∃ c?, (project.compileContentType options type).result = .ok c?) :
    project.compile options =
      ⟨project.contentTypes.flatMap fun type => (project.compileContentType options type).reported,
        .ok (project.contentTypes.filterMap (project.outcome? options))⟩ := by
  have row := mapM_compileContentType_of_fine fine
  rw [compile, Reporting.bind_of_ok row, Reporting.reported_mapM row, List.reduceOption,
    List.filterMap_map, Reporting.reported_pure, List.append_nil]
  rfl

/-- Each content type of a compilation that succeeds is compiled or left out. -/
lemma compileContentType_of_compile (h : (project.compile options).result = .ok compiled)
    (mem : type ∈ project.contentTypes) :
    ∃ c?, (project.compileContentType options type).result = .ok c? ∧ ∀ c ∈ c?, c ∈ compiled := by
  obtain ⟨-, results, rfl, rows⟩ := compile_eq_ok h
  obtain ⟨i, hi, rfl⟩ := List.mem_iff_getElem.mp mem
  have hr : i < results.length := rows.length_eq ▸ hi
  refine ⟨results[i], rows.get hi hr, fun c hc => ?_⟩
  rw [List.reduceOption_mem_iff, ← hc]
  exact List.getElem_mem hr

/-- A compilation succeeds exactly when each of its content types does on its own. -/
lemma compile_succeeds_iff :
    (∃ compiled, (project.compile options).result = .ok compiled) ↔
      ∀ type ∈ project.contentTypes,
        ∃ c?, (project.compileContentType options type).result = .ok c? := by
  constructor
  · rintro ⟨compiled, ran⟩ type mem
    obtain ⟨c?, own, -⟩ := compileContentType_of_compile ran mem
    exact ⟨c?, own⟩
  · intro fine
    rw [compile_of_fine fine]
    exact ⟨_, rfl⟩

/-- Every compiled class comes from a content type. -/
lemma exists_type_of_mem (h : (project.compile options).result = .ok compiled)
    (mem : c ∈ compiled) :
    ∃ type ∈ project.contentTypes,
      (project.compileContentType options type).result = .ok (some c) := by
  obtain ⟨-, results, rfl, rows⟩ := compile_eq_ok h
  obtain ⟨i, hi, same⟩ := List.mem_iff_getElem.mp (List.reduceOption_mem_iff.mp mem)
  have ht : i < project.contentTypes.length := rows.length_eq ▸ hi
  refine ⟨project.contentTypes[i], List.getElem_mem ht, ?_⟩
  rw [← same]
  exact rows.get ht hi

/-- A content type that does not fail has a class named by its codename, or none if the codename
gives no name. -/
lemma className_of_ok {c? : Option CompiledContentType}
    (own : (project.compileContentType options type).result = .ok c?) :
    c?.map (·.model.className) = Identifier.ofText? type.codename := by
  cases named : Identifier.ofText? type.codename with
  | none =>
    rw [compileContentType_of_unnamed named] at own
    cases own
    rfl
  | some className =>
    rw [compileContentType_of_complete named (complete_of_ok named own)] at own
    obtain ⟨classes, row, made⟩ := Reporting.result_bind_eq_ok.mp own
    cases made
    rw [Option.map_some, Classes.toCompiled_model, addSystem_base (reached_base row)]
    rfl

/-- Every content type with an identifier gives a class of that name. -/
lemma exists_compiled_of_named (h : (project.compile options).result = .ok compiled)
    (mem : type ∈ project.contentTypes)
    (named : Identifier.ofText? type.codename = some className) :
    ∃ c ∈ compiled, c.model.className = className := by
  obtain ⟨c?, own, kept⟩ := compileContentType_of_compile h mem
  have same := className_of_ok own
  rw [named] at same
  obtain ⟨c, rfl, name⟩ := Option.map_eq_some_iff.mp same
  exact ⟨c, kept c rfl, name⟩

/-- The classes that a compilation gives are named by the codenames of its content types, in their
order. -/
lemma classNames_of_compile (h : (project.compile options).result = .ok compiled) :
    compiled.map (·.model.className) =
      project.contentTypes.filterMap fun type => Identifier.ofText? type.codename := by
  have fine := compile_succeeds_iff.mp ⟨compiled, h⟩
  rw [compile_of_fine fine] at h
  cases h
  rw [List.map_filterMap]
  apply List.filterMap_congr
  intro type mem
  obtain ⟨c?, own⟩ := fine type mem
  rw [outcome?_of_ok own]
  exact className_of_ok own

end Project

end ContentClasses
