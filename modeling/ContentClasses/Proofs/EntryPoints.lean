import ContentClasses.Generation
import ContentClasses.Proofs.Rows
import ContentClasses.Proofs.WrittenFiles

/-!
# Ways to make a generation

A generation can be run, run dry, run with a sink of the caller's own, or rendered without a file
being written. All of them go through the same stages up to the compiled classes, and a stage that
fails ends each of them with the same error behind the same diagnostics. Where a run succeeds, the
others give what it gives: `Generation.entry_points_agree`.
-/

namespace ContentClasses

open Files (Workspace)

/-- What receives diagnostics: its state before the first of them, and how it takes one. -/
structure Sink (σ : Type) where
  start : σ
  take : σ → Diagnostic → σ

namespace Sink
variable {σ : Type}

/-- The state of a sink behind some diagnostics. -/
def after (sink : Sink σ) (ds : List Diagnostic) : σ :=
  ds.foldl sink.take sink.start

/-- A closure as a sink: it is called with the message of each diagnostic. -/
def closure (start : σ) (call : σ → String → σ) : Sink σ where
  start := start
  take state d := call state d.message

/-- The closure that keeps the messages. -/
def messages : Sink (List String) :=
  closure [] fun seen message => seen ++ [message]

/-- The sink that keeps the diagnostics. -/
def collecting : Sink Diagnostics where
  start := {}
  take := Diagnostics.add

lemma after_collecting (ds : List Diagnostic) : collecting.after ds = ⟨ds⟩ := by
  have behind (report : Diagnostics) :
      ds.foldl Diagnostics.add report = ⟨report.items ++ ds⟩ := by
    induction ds generalizing report with
    | nil => rw [List.foldl_nil, List.append_nil]
    | cons d ds ih =>
      rw [List.foldl_cons, ih, Diagnostics.add, List.append_assoc, List.singleton_append]
  exact behind {}

/-- A closure that keeps the messages has those of the diagnostics that are kept. -/
lemma after_messages (ds : List Diagnostic) :
    messages.after ds = (collecting.after ds).messages := by
  have step (report : Diagnostics) (d : Diagnostic) :
      messages.take report.messages d = (report.add d).messages := by
    rw [Diagnostics.messages, Diagnostics.messages, Diagnostics.add, List.map_append]
    rfl
  show ds.foldl messages.take (Diagnostics.messages {}) = (ds.foldl Diagnostics.add {}).messages
  exact List.foldl_hom Diagnostics.messages step

end Sink

namespace Generation
variable {g : Generation} {w after : Workspace} {ds : List Diagnostic} {e : Error}
  {compiled : List CompiledContentType} {paths : List Path} {report : Report}

/-- The same generation, as a dry run or as one that writes. -/
def withDryRun (g : Generation) (dryRun : Bool) : Generation :=
  { g with dryRun }

lemma compile_withDryRun (dryRun : Bool) : (g.withDryRun dryRun).compile w = g.compile w :=
  rfl

/-- A stage in front of the writing fails, and these diagnostics have been reported by then. The
kinds of elements are read by two stages, of which the first sees all that the second could
(`Config.Valid.options_eq`). -/
inductive EndsEarly (g : Generation) (w : Workspace) : List Diagnostic → Error → Prop where
  | validation {e : Error} (h : g.config.validate = .error e) : EndsEarly g w [] e
  | options {e : Error} (valid : g.config.validate = .ok ())
      (h : g.config.options = .error e) : EndsEarly g w [] e
  | schema {options : Options} {e : Error} (valid : g.config.validate = .ok ())
      (read : g.config.options = .ok options) (h : g.source.project w = .error e) :
      EndsEarly g w [] e
  | compilation {options : Options} {project : Project} {e : Error}
      (valid : g.config.validate = .ok ()) (read : g.config.options = .ok options)
      (loaded : g.source.project w = .ok project)
      (h : (project.compile options).result = .error e) :
      EndsEarly g w (project.compile options).reported e

/-- What follows the stages in front of the compilation. -/
lemma compile_of_project {options : Options} {project : Project}
    (valid : g.config.validate = .ok ()) (read : g.config.options = .ok options)
    (loaded : g.source.project w = .ok project) :
    g.compile w = project.compile options >>= fun compiled =>
      ⟨if compiled.isEmpty then [.noContentTypes g.projectLabel] else [], .ok compiled⟩ := by
  rw [compile, valid, read, loaded]
  show project.compile options >>= _ = _
  congr 1
  funext compiled
  cases compiled <;> rfl

lemma compile_of_early (early : g.EndsEarly w ds e) : g.compile w = ⟨ds, .error e⟩ := by
  cases early with
  | validation h =>
    rw [compile, h]
    rfl
  | options valid h =>
    rw [compile, valid, h]
    rfl
  | schema valid read h =>
    rw [compile, valid, read, h]
    rfl
  | compilation valid read loaded h =>
    rw [compile_of_project valid read loaded, Reporting.bind_of_error h]

/-- Either one of the stages fails, or all of them succeed. -/
lemma endsEarly_or_compiled (g : Generation) (w : Workspace) :
    (∃ ds e, g.EndsEarly w ds e) ∨
      ∃ options project compiled, g.config.validate = .ok () ∧ g.config.options = .ok options ∧
        g.source.project w = .ok project ∧ (project.compile options).result = .ok compiled := by
  cases valid : g.config.validate with
  | error e => exact .inl ⟨_, _, .validation valid⟩
  | ok =>
    cases read : g.config.options with
    | error e => exact .inl ⟨_, _, .options valid read⟩
    | ok options =>
      cases loaded : g.source.project w with
      | error e => exact .inl ⟨_, _, .schema valid read loaded⟩
      | ok project =>
        cases ran : (project.compile options).result with
        | error e => exact .inl ⟨_, _, .compilation valid read loaded ran⟩
        | ok compiled => exact .inr ⟨options, project, compiled, rfl, rfl, rfl, ran⟩

/-- What is compiled comes out of the schema of the source. The report is that of the schema, with
a word at its end if there is no class. -/
lemma exists_compilation (h : (g.compile w).result = .ok compiled) :
    ∃ options project, g.config.options = .ok options ∧ g.source.project w = .ok project ∧
      (project.compile options).result = .ok compiled ∧
      g.compile w =
        ⟨(project.compile options).reported ++
          if compiled.isEmpty then [.noContentTypes g.projectLabel] else [], .ok compiled⟩ := by
  obtain ⟨ds, e, early⟩ | ⟨options, project, compiled', valid, read, loaded, ran⟩ :=
    g.endsEarly_or_compiled w
  · rw [compile_of_early early] at h
    cases h
  · have whole := compile_of_project valid read loaded
    rw [Reporting.bind_of_ok ran] at whole
    rw [whole] at h
    cases h
    exact ⟨options, project, read, loaded, ran, whole⟩

/-- Behind compiled classes there are options and a schema that was read. -/
lemma exists_project (h : (g.compile w).result = .ok compiled) :
    ∃ options project, g.config.options = .ok options ∧ g.source.project w = .ok project ∧
      (project.compile options).result = .ok compiled := by
  obtain ⟨options, project, read, loaded, ran, -⟩ := exists_compilation h
  exact ⟨options, project, read, loaded, ran⟩

/-- The stages in front of the writing end in an error exactly where one of them fails. -/
lemma endsEarly_iff : g.EndsEarly w ds e ↔ g.compile w = ⟨ds, .error e⟩ := by
  refine ⟨compile_of_early, fun h => ?_⟩
  obtain ⟨ds', e', early⟩ | ⟨options, project, compiled, valid, read, loaded, ran⟩ :=
    g.endsEarly_or_compiled w
  · rw [compile_of_early early] at h
    cases h
    exact early
  · rw [compile_of_project valid read loaded, Reporting.bind_of_ok ran] at h
    cases h

/-- There are files exactly when there is a class. -/
lemma files_eq_nil : g.files compiled = [] ↔ compiled = [] := by
  cases compiled with
  | nil => exact iff_of_true rfl rfl
  | cons c cs => exact iff_of_false nofun nofun

/-- A dry run tells the paths of the files and writes none. -/
lemma emit_of_dryRun (dry : g.dryRun) :
    g.emit compiled w = (.ok ((g.files compiled).map g.output.pathOf), w) := by
  rw [emit]
  split
  case isTrue empty =>
    rw [List.isEmpty_iff.mp empty]
    rfl
  case isFalse => exact Output.writeAll_of_dryRun dry

/-- The paths that are told are those of the files. -/
lemma emit_paths (h : g.emit compiled w = (.ok paths, after)) :
    paths = (g.files compiled).map g.output.pathOf := by
  rw [emit] at h
  split at h
  case isTrue empty =>
    rw [List.isEmpty_iff.mp empty]
    cases h
    rfl
  case isFalse => exact (Output.writeAll_eq_ok h).1

section Early
variable (early : g.EndsEarly w ds e)

include early

/-- A run that ends early changes nothing. -/
lemma run_of_early : g.run w = (.error e, w) := by
  rw [run, compile_of_early early]

lemma forward_of_early : g.forward w = (⟨ds, .error e⟩, w) := by
  rw [forward, compile_of_early early]

lemma render_of_early : g.render w = ⟨ds, .error e⟩ := by
  rw [render, compile_of_early early]
  rfl

end Early

section Compiled
variable (h : g.compile w = ⟨ds, .ok compiled⟩)

include h

/-- Behind the compiled classes a run writes, or tells what it would write. -/
lemma run_of_compiled :
    g.run w =
      ((g.emit compiled w).1.map fun paths => ⟨compiled.length, paths, ds⟩,
        (g.emit compiled w).2) := by
  rw [run, h]

/-- So does a run with a sink, which has all diagnostics by then. -/
lemma forward_of_compiled :
    g.forward w = (⟨ds, (g.emit compiled w).1⟩, (g.emit compiled w).2) := by
  rw [forward, h]

/-- Rendering gives the files of the compiled classes. -/
lemma render_of_compiled : g.render w = ⟨ds, .ok (g.files compiled)⟩ := by
  rw [render, h]
  exact congrArg (Reporting.mk · _) (List.append_nil ds)

end Compiled

/-- A run that succeeds has compiled the schema and written what there was to write. -/
lemma run_eq_ok :
    g.run w = (.ok report, after) ↔
      ∃ compiled, g.compile w = ⟨report.diagnostics, .ok compiled⟩ ∧
        g.emit compiled w = (.ok report.paths, after) ∧ report.contentTypes = compiled.length := by
  constructor
  · intro h
    cases ran : g.compile w with
    | mk ds result =>
      cases result with
      | error e =>
        rw [run_of_early (endsEarly_iff.mpr ran)] at h
        cases h
      | ok compiled =>
        rw [run_of_compiled ran] at h
        cases emitted : g.emit compiled w with
        | mk result final =>
          rw [emitted] at h
          cases result with
          | error e => cases h
          | ok paths =>
            cases h
            exact ⟨compiled, rfl, emitted, rfl⟩
  · rintro ⟨compiled, ran, emitted, count⟩
    rw [run_of_compiled ran, emitted, ← count]
    rfl

/-- Where a run that writes succeeds, the dry run gives the same report, the run with a sink gives
the same paths while its closure sees the messages of the report, and the files that are rendered
are those of the paths, none when no class was compiled. Where a stage in front of the writing
fails, all of them fail with the same error, and a closure has seen the messages of what a sink for
diagnostics has. -/
theorem entry_points_agree (g : Generation) (w : Workspace) :
    (∀ report after, (g.withDryRun false).run w = (.ok report, after) →
      (g.withDryRun true).run w = (.ok report, w) ∧
      ((g.withDryRun false).forward w).1.result = .ok report.paths ∧
      ((g.withDryRun false).forward w).2 = after ∧
      Sink.messages.after ((g.withDryRun false).forward w).1.reported =
        Diagnostics.messages ⟨report.diagnostics⟩ ∧
      ∃ files, (g.render w).result = .ok files ∧
        files.map (fun file => g.config.outputDir.join file.name) = report.paths ∧
        (files = [] ↔ report.contentTypes = 0)) ∧
    ∀ ds e, g.EndsEarly w ds e → ∀ dryRun,
      (g.withDryRun dryRun).run w = (.error e, w) ∧
      ((g.withDryRun dryRun).forward w).1.result = .error e ∧
      ((g.withDryRun dryRun).forward w).2 = w ∧
      (g.render w).result = .error e ∧
      Sink.messages.after ((g.withDryRun dryRun).forward w).1.reported =
        (Sink.collecting.after (g.render w).reported).messages := by
  constructor
  · intro report after h
    -- All four go through one compilation; they differ in what becomes of its classes.
    obtain ⟨compiled, ran, emitted, count⟩ := run_eq_ok.mp h
    have forward := forward_of_compiled ran
    rw [emitted] at forward
    rw [compile_withDryRun] at ran
    have paths := emit_paths emitted
    have dry : (g.withDryRun true).emit compiled w = (.ok report.paths, w) := by
      rw [paths]
      exact emit_of_dryRun rfl
    rw [forward, render_of_compiled ran, Sink.after_messages, Sink.after_collecting]
    refine ⟨run_eq_ok.mpr ⟨compiled, ran, dry, count⟩, rfl, rfl, rfl, _, rfl, paths.symm, ?_⟩
    rw [files_eq_nil, count, List.length_eq_zero_iff]
  · intro ds e early dryRun
    have same : (g.withDryRun dryRun).EndsEarly w ds e := by
      rw [endsEarly_iff, compile_withDryRun]
      exact compile_of_early early
    rw [forward_of_early same, render_of_early early]
    exact ⟨run_of_early same, rfl, rfl, rfl, Sink.after_messages ds⟩

/-- A generation for the directory `out` with a content type that is left out and one with the
given elements. -/
def leaflet (elements : List Element) : Generation where
  config := { outputDir := ⟨"out"⟩, withTypeProvider := true }
  source := .given {
    contentTypes := [
      { id := "t1", codename := "--", name := "Dashes" },
      { id := "t2", codename := "leaflet", name := "Leaflet", elements }]
    snippets := [] }
  dryRun := false

/-- The leaflet gives two files whatever is asked for, and one with a snippet that is missing ends
whatever is asked for behind one message. -/
theorem leaflet_entry_points :
    let empty : Workspace := ⟨.dir [], []⟩
    let message := "Skipping Content Type '--'. Can't create a valid identifier from its name."
    let broken := leaflet [{ codename := "seo", kind := .snippet }]
    (∃ report after, (leaflet []).run empty = (.ok report, after) ∧
      report.contentTypes = 1 ∧
      report.paths = [⟨"out/Leaflet.Generated.cs"⟩, ⟨"out/CustomTypeProvider.cs"⟩] ∧
      ((leaflet []).withDryRun true).run empty = (.ok report, empty) ∧
      ((leaflet []).forward empty).1.result = .ok report.paths ∧
      Sink.messages.after ((leaflet []).forward empty).1.reported = [message]) ∧
    broken.run empty = (.error (.missingSnippet "seo"), empty) ∧
    (broken.withDryRun true).run empty = (.error (.missingSnippet "seo"), empty) ∧
    Sink.messages.after (broken.forward empty).1.reported = [message] := by
  intro empty message broken
  constructor
  · have fine : ∃ report ∈ ((leaflet []).run empty).1.toOption, report.contentTypes = 1 ∧
        report.paths = [⟨"out/Leaflet.Generated.cs"⟩, ⟨"out/CustomTypeProvider.cs"⟩] ∧
        report.diagnostics = [.skippedContentType "--"] := by
      decide
    obtain ⟨report, ran, count, paths, diagnostics⟩ := exists_eq_ok fine
    have live : (leaflet []).run empty = (.ok report, ((leaflet []).run empty).2) :=
      Prod.ext ran rfl
    obtain ⟨dry, forward, -, messages, -⟩ := (entry_points_agree (leaflet []) empty).1 _ _ live
    rw [diagnostics] at messages
    exact ⟨report, _, live, count, paths, dry, forward, messages⟩
  · have ends : (broken.compile empty).result = .error (.missingSnippet "seo") := by decide
    have early := endsEarly_iff.mpr (congrArg (Reporting.mk (broken.compile empty).reported) ends)
    have agree := (entry_points_agree broken empty).2 _ _ early
    obtain ⟨live, -, -, -, messages⟩ := agree false
    obtain ⟨dry, -⟩ := agree true
    exact ⟨live, dry, messages.trans (by decide)⟩

end Generation

end ContentClasses
