import ContentClasses.Proofs.EntryPoints
import ContentClasses.Proofs.Failures
import ContentClasses.Proofs.ValidConfigs

/-!
# Providers of schemas

A generation may ask any provider for the schema, one whose answers fail, change from question to
question or are counted. A configuration that is refused ends it before a question is asked. With a
valid one it fails only where the provider does, or where the schema lacks a snippet or a content
type: `Generation.validation_suffices`.
-/

namespace ContentClasses

open Config (IsNamespace)
open Files (Workspace)
open StructuredKinds (IsKnown)
open Text (trim)

/-- What answers for the schema of a project. An answer may fail, and may change the state that the
next one depends on. -/
structure Provider (σ : Type) where
  contentTypes : σ → Except Error (List ContentType) × σ
  snippets : σ → Except Error (List Snippet) × σ

namespace Provider
variable {σ : Type} {provider : Provider σ} {s : σ} {e : Error}

/-- Asks for the content types, and for the snippets once the content types are there. -/
def project (provider : Provider σ) (s : σ) : Except Error Project × σ :=
  match provider.contentTypes s with
  | (.error e, s) => (.error e, s)
  | (.ok contentTypes, s) =>
    match provider.snippets s with
    | (.error e, s) => (.error e, s)
    | (.ok snippets, s) => (.ok { contentTypes, snippets }, s)

/-- The answer to one of the questions is an error. -/
inductive Fails (provider : Provider σ) (s : σ) (e : Error) : Prop where
  | contentTypes {next : σ} (answer : provider.contentTypes s = (.error e, next)) :
      Fails provider s e
  | snippets {contentTypes : List ContentType} {next last : σ}
      (given : provider.contentTypes s = (.ok contentTypes, next))
      (answer : provider.snippets next = (.error e, last)) : Fails provider s e

/-- The schema is not there exactly when one of the answers fails. -/
lemma fails_iff : provider.Fails s e ↔ (provider.project s).1 = .error e := by
  constructor
  · intro fails
    cases fails with
    | contentTypes answer => rw [project, answer]
    | snippets given answer => simp only [project, given, answer]
  · intro failed
    rw [project] at failed
    split at failed
    case h_1 answer =>
      cases failed
      exact .contentTypes answer
    case h_2 given =>
      split at failed
      case h_1 answer =>
        cases failed
        exact .snippets given answer
      case h_2 => cases failed

end Provider

/-- The answers of a source in a workspace, with the number of questions that were asked as the
state. -/
def SchemaSource.counted (source : SchemaSource) (w : Workspace) : Provider Nat where
  contentTypes asked := (source.contentTypes w, asked + 1)
  snippets asked := (source.snippets w, asked + 1)

/-- To count the questions does not change the schema. -/
lemma SchemaSource.project_counted (source : SchemaSource) (w : Workspace) (asked : Nat) :
    ((source.counted w).project asked).1 = source.project w := by
  rw [Provider.project, counted, SchemaSource.project]
  cases source.contentTypes w with
  | error e => rfl
  | ok contentTypes => cases source.snippets w <;> rfl

/-- A computation that reports and may fail, and goes through the states of a provider. Neither what
was reported nor the state is lost when it fails. -/
def Asking (σ α : Type) : Type :=
  σ → Reporting α × σ

namespace Asking
variable {σ α β : Type}

/-- A computation that asks nothing. -/
def telling (x : Reporting α) : Asking σ α :=
  fun s => (x, s)

/-- A question. -/
def question (answer : σ → Except Error α × σ) : Asking σ α :=
  fun s => (Reporting.ofExcept (answer s).1, (answer s).2)

/-- Two computations in a row, of which the second depends on the value of the first. -/
def andThen (x : Asking σ α) (f : α → Asking σ β) : Asking σ β :=
  fun s =>
    match x s with
    | (⟨ds, .ok a⟩, s) => (⟨ds ++ (f a s).1.reported, (f a s).1.result⟩, (f a s).2)
    | (⟨ds, .error e⟩, s) => (⟨ds, .error e⟩, s)

instance : Monad (Asking σ) where
  pure a := telling (pure a)
  bind := andThen

section Questions
variable {answer : σ → Except Error α × σ} {f : α → Asking σ β} {s next : σ} {a : α} {e : Error}

/-- Behind an answer the run goes on from the next state of the provider. -/
lemma question_bind_of_ok (h : answer s = (.ok a, next)) :
    (question answer >>= f) s = f a next := by
  show andThen (question answer) f s = _
  rw [andThen, question, h]
  rfl

/-- A question without an answer ends the run, with nothing reported. -/
lemma question_bind_of_error (h : answer s = (.error e, next)) :
    (question answer >>= f) s = (⟨[], .error e⟩, next) := by
  show andThen (question answer) f s = _
  rw [andThen, question, h]
  rfl

end Questions

end Asking

/-- An error says that a snippet or a content type of the schema is not there. -/
inductive Error.Missing : Error → Prop where
  | snippet (codename : String) : Missing (.missingSnippet codename)
  | contentType (reference : Reference) (element : String) :
      Missing (.allowedTypeNotFound reference element)

namespace Project
variable {project : Project} {options : Options} {e : Error}

/-- What a compilation fails with is a snippet or a content type that is not there. -/
lemma missing_of_compile (h : (project.compile options).result = .error e) : e.Missing := by
  by_cases failing : ∃ type ∈ project.contentTypes, project.Fails options type
  · obtain ⟨before, type, after, split, fine, fails⟩ := exists_first failing
    obtain ⟨className, named⟩ := Option.isSome_iff_exists.mp fails.named
    obtain ⟨seen, err, failsAt⟩ := fails.failsAt
    rw [compile_of_failsAt split fine named failsAt] at h
    cases h
    cases failsAt with
    | missingSnippet => exact .snippet _
    | deadLink => exact .contentType _ _
  · have fine : ∀ type ∈ project.contentTypes, ¬ project.Fails options type :=
      fun type mem fails => failing ⟨type, mem, fails⟩
    obtain ⟨compiled, ran⟩ := compile_of_not_fails fine
    cases h.symm.trans ran

end Project

namespace Generation
variable {σ : Type} {g : Generation} {provider : Provider σ} {s next : σ} {e : Error}
  {project : Project}

/-- Checks the configuration, asks a provider for the schema and compiles it. -/
def compileFrom (g : Generation) (provider : Provider σ) :
    Asking σ (List CompiledContentType) := do
  Asking.telling (Reporting.ofExcept g.config.validate)
  let options ← Asking.telling (Reporting.ofExcept g.config.options)
  let project ← Asking.question provider.project
  Asking.telling do
    let compiled ← project.compile options
    if compiled.isEmpty then Reporting.report (.noContentTypes g.projectLabel)
    return compiled

/-- A configuration that is refused asks the provider nothing. -/
lemma compileFrom_of_refused (refused : g.config.Refused e) :
    g.compileFrom provider s = (⟨[], .error e⟩, s) := by
  rw [compileFrom, refused.validate_eq]
  rfl

section Valid
variable (valid : g.config.Valid)

include valid

/-- Where the provider fails, so does the run, with its error and nothing reported. -/
lemma compileFrom_of_unanswered (unanswered : provider.project s = (.error e, next)) :
    g.compileFrom provider s = (⟨[], .error e⟩, next) := by
  rw [compileFrom, valid.validate_eq, valid.options_eq]
  exact Asking.question_bind_of_error unanswered

/-- What follows the answers of the provider. -/
lemma compileFrom_of_given (given : provider.project s = (.ok project, next)) :
    g.compileFrom provider s =
      (project.compile g.config.optionsOfWords >>= fun compiled =>
        ⟨if compiled.isEmpty then [.noContentTypes g.projectLabel] else [], .ok compiled⟩,
      next) := by
  rw [compileFrom, valid.validate_eq, valid.options_eq]
  refine (Asking.question_bind_of_ok given).trans ?_
  show (project.compile g.config.optionsOfWords >>= _, next) = _
  congr 2
  funext compiled
  cases compiled <;> rfl

/-- The state is the one behind the questions. -/
lemma compileFrom_state : (g.compileFrom provider s).2 = (provider.project s).2 := by
  cases asks : provider.project s with
  | mk result next =>
    cases result with
    | error e => rw [compileFrom_of_unanswered valid asks]
    | ok project => rw [compileFrom_of_given valid asks]

/-- What fails is an answer, or the compilation of the schema that the answers give. -/
lemma compileFrom_fails_iff :
    (g.compileFrom provider s).1.result = .error e ↔
      provider.Fails s e ∨
        ∃ project, (provider.project s).1 = .ok project ∧
          (project.compile g.config.optionsOfWords).result = .error e := by
  rw [Provider.fails_iff]
  cases asks : provider.project s with
  | mk result next =>
    cases result with
    | error err =>
      rw [compileFrom_of_unanswered valid asks]
      simp
    | ok project =>
      rw [compileFrom_of_given valid asks]
      cases ran : (project.compile g.config.optionsOfWords).result with
      | error err =>
        rw [Reporting.bind_of_error ran]
        simp [ran]
      | ok compiled =>
        rw [Reporting.bind_of_ok ran]
        simp [ran]

end Valid

/-- The compilation of a generation is the one that asks the source of the generation. -/
lemma compile_eq_compileFrom (g : Generation) (w : Workspace) (asked : Nat) :
    g.compile w = (g.compileFrom (g.source.counted w) asked).1 := by
  obtain valid | ⟨e, refused⟩ := g.config.valid_or_refused
  · have answer := g.source.project_counted w asked
    cases asks : (g.source.counted w).project asked with
    | mk result next =>
      rw [asks] at answer
      cases result with
      | error e =>
        rw [compileFrom_of_unanswered valid asks,
          compile_of_early (.schema valid.validate_eq valid.options_eq answer.symm)]
      | ok project =>
        rw [compileFrom_of_given valid asks,
          compile_of_project valid.validate_eq valid.options_eq answer.symm]
  · rw [compileFrom_of_refused refused, compile_of_early (.validation refused.validate_eq)]

/-- The check of a configuration accepts exactly those whose namespace is a row of identifiers with
a dot between each two and whose names of structured kinds are, without the blank characters around
them, empty or known. Then the options can be read, and a compilation from any provider asks it for
the schema and fails exactly where an answer does, or with a snippet or a content type that the
schema lacks. With any other configuration, it ends with the error of the check before a question is
asked or a diagnostic reported, and that error is an argument that is not valid. The compilation of
a generation is the one from the provider that answers for its source. -/
theorem validation_suffices (g : Generation) :
    (g.config.validate = .ok () ↔
      IsNamespace g.config.namespaceName.toList ∧
        ∀ name ∈ g.config.structuredModel, IsKnown (trim name)) ∧
    (g.config.validate = .ok () → g.config.options = .ok g.config.optionsOfWords ∧
      ∀ (σ : Type) (provider : Provider σ) (s : σ),
        (g.compileFrom provider s).2 = (provider.project s).2 ∧
        ∀ e, (g.compileFrom provider s).1.result = .error e ↔
          provider.Fails s e ∨
            e.Missing ∧ ∃ project, (provider.project s).1 = .ok project ∧
              (project.compile g.config.optionsOfWords).result = .error e) ∧
    (∀ e, g.config.validate = .error e →
      g.config.Refused e ∧ (∃ reason, e.message = "Invalid argument: " ++ reason) ∧
      ∀ (σ : Type) (provider : Provider σ) (s : σ),
        g.compileFrom provider s = (⟨[], .error e⟩, s)) ∧
    ∀ w asked, g.compile w = (g.compileFrom (g.source.counted w) asked).1 := by
  refine ⟨?_, fun accepted => ?_, fun e failed => ?_, g.compile_eq_compileFrom⟩
  · rw [Config.validate_eq_ok_iff, Config.valid_iff]
  · have valid := Config.validate_eq_ok_iff.mp accepted
    refine ⟨valid.options_eq, fun σ provider s => ⟨compileFrom_state valid, fun e => ?_⟩⟩
    rw [compileFrom_fails_iff valid]
    refine or_congr_right ⟨?_, And.right⟩
    rintro ⟨project, given, failed⟩
    exact ⟨Project.missing_of_compile failed, project, given, failed⟩
  · have refused := Config.validate_eq_error_iff.mp failed
    exact ⟨refused, refused.message_eq, fun σ provider s => compileFrom_of_refused refused⟩

/-- A page with a snippet. -/
def page : ContentType :=
  { id := "t1", codename := "page", name := "Page"
    elements := [{ codename := "seo", kind := .snippet }] }

/-- A generation for a namespace, with the page and without its snippet. -/
def acme (namespaceName : String) : Generation where
  config := { namespaceName, structuredModel := [" RichText\t", ""] }
  source := .given { contentTypes := [page], snippets := [] }
  dryRun := true

/-- With a namespace, both questions are asked and the page fails. With two dots between the
identifiers of the namespace, none is asked. -/
theorem acme_validated :
    let w : Workspace := ⟨.dir [], []⟩
    let accepted := acme "Acme.Models2"
    let refused := acme "Acme..Models2"
    let provider := accepted.source.counted w
    let refusal : Error := .malformedNamespace "Acme..Models2"
    accepted.config.validate = .ok () ∧
      IsNamespace "Acme.Models2".toList ∧
      accepted.config.options = .ok { structured := { richText := true } } ∧
      (accepted.compileFrom provider 0).1.result = .error (.missingSnippet "seo") ∧
      (accepted.compileFrom provider 0).2 = 2 ∧
      (accepted.compile w).result = .error (.missingSnippet "seo") ∧
      refused.config.validate = .error refusal ∧
      refused.compileFrom provider 0 = (⟨[], .error refusal⟩, 0) := by
  intro w accepted refused provider refusal
  have valid : accepted.config.validate = .ok () := by decide
  have malformed : refused.config.validate = .error refusal := by decide
  have lacks : (Project.compile ⟨[page], []⟩ accepted.config.optionsOfWords).result =
      .error (.missingSnippet "seo") := by decide
  obtain ⟨grammar, reads, -, same⟩ := validation_suffices accepted
  obtain ⟨-, -, refuses, -⟩ := validation_suffices refused
  obtain ⟨read, runs⟩ := reads valid
  obtain ⟨asked, fails⟩ := runs Nat provider 0
  obtain ⟨-, -, untouched⟩ := refuses refusal malformed
  have ends := (fails _).mpr (.inr ⟨.snippet "seo", _, rfl, lacks⟩)
  refine ⟨valid, (grammar.mp valid).1, read, ends, asked, ?_, malformed,
    untouched Nat provider 0⟩
  rw [same w 0]
  exact ends

end Generation

end ContentClasses
