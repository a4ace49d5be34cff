import ContentClasses.Proofs.EntryPoints
import ContentClasses.Proofs.Names

/-!
# What a run leaves in the file tree

A run that ends early, compiles no content type or is dry leaves the file tree as it was. Any other
run that succeeds makes the directory of the output and those above it, as far as they are missing,
and leaves in it the last of the rendered files of each name: `Generation.run_effect`. The names of
the files are those of classes with the extension of a source, which is not that of a document, so
that no document of a schema is lost.
-/

namespace ContentClasses

open Files (Location Workspace)

namespace SourceFile

/-- What stands in front of the extension in the name of a source: a capital first, and no
separator. -/
structure IsStem (stem : String) : Prop where
  plain : Path.separator ∉ stem.toList
  capital : ∃ c cs, stem.toList = c :: cs ∧ c.isUpper

/-- The name of the source with a stem. -/
def nameOf (stem : String) : String :=
  stem ++ "." ++ CSharp.extension

variable {stem : String}

lemma toList_nameOf : (nameOf stem).toList = stem.toList ++ ['.', 'c', 's'] := by
  rw [nameOf, String.append_assoc, String.toList_append]
  rfl

namespace IsStem

/-- A stem with its extension is the name of a file. -/
lemma isFileName (isStem : IsStem stem) : Path.IsFileName (nameOf stem) where
  plain := by
    rw [toList_nameOf, List.mem_append]
    exact not_or_intro isStem.plain (by decide)
  step := by
    obtain ⟨c, cs, text, capital⟩ := isStem.capital
    -- What means no entry does not start with a capital.
    have other (part : String) (small : part.toList.head?.all (!·.isUpper)) :
        nameOf stem ≠ part := by
      rintro rfl
      rw [toList_nameOf, text, List.cons_append, List.head?_cons, Option.all_some, capital]
        at small
      cases small
    rw [Path.Step.ofPart, if_neg, if_neg]
    · exact other ".." (by decide)
    · rintro (same | same)
      · exact other "" (by decide) same
      · exact other "." (by decide) same

/-- The name of a source has the extension of sources. -/
lemma extension? (isStem : IsStem stem) :
    Path.extension? (nameOf stem) = some CSharp.extension := by
  obtain ⟨c, cs, text, -⟩ := isStem.capital
  obtain ⟨d, ds, reversed⟩ : ∃ d ds, stem.toList.reverse = d :: ds :=
    List.exists_cons_of_ne_nil (by rw [text]; simp)
  have back : (nameOf stem).toList.reverse = 's' :: 'c' :: '.' :: d :: ds := by
    rw [toList_nameOf, List.reverse_append, reversed]
    rfl
  simp only [Path.extension?, back]
  rfl

/-- An identifier is a stem. -/
lemma ofPascal {identifier : Identifier} (pascal : identifier.IsPascal) :
    IsStem identifier.text where
  plain := pascal.notMem (by decide)
  capital := by
    obtain ⟨c, cs, text, capital, -⟩ := pascal
    exact ⟨c, cs, text, capital⟩

/-- A stem stays one with another part behind it. -/
lemma append (isStem : IsStem stem) {part : String} (plain : Path.separator ∉ part.toList) :
    IsStem (stem ++ "." ++ part) where
  plain := by
    rw [String.toList_append, String.toList_append, List.mem_append, List.mem_append]
    exact not_or_intro (not_or_intro isStem.plain (by decide)) plain
  capital := by
    obtain ⟨c, cs, text, capital⟩ := isStem.capital
    refine ⟨c, cs ++ ".".toList ++ part.toList, ?_, capital⟩
    rw [String.toList_append, String.toList_append, text]
    rfl

/-- A stem stays one with more parts behind it. -/
lemma intercalate (isStem : IsStem stem) {parts : List String}
    (plain : ∀ part ∈ parts, Path.separator ∉ part.toList) :
    IsStem (".".intercalate (stem :: parts)) := by
  induction parts generalizing stem with
  | nil => rwa [String.intercalate_singleton]
  | cons part parts ih =>
    rw [List.forall_mem_cons] at plain
    have joined : ".".intercalate (stem :: part :: parts) =
        ".".intercalate ((stem ++ "." ++ part) :: parts) := by
      rw [String.intercalate_cons_of_ne_nil (List.cons_ne_nil part parts),
        String.intercalate_cons_append]
    rw [joined]
    exact ih (isStem.append plain.1) plain.2

end IsStem

end SourceFile

namespace Generation

open SourceFile (IsStem nameOf)

variable {g : Generation} {w after : Workspace} {compiled : List CompiledContentType}
  {c : CompiledContentType} {f : SourceFile}

/-- A file is named by the parts of its stem and the suffix, where there is one. -/
lemma fileName_eq (plain : Path.separator ∉ g.config.fileNameSuffix.toList) {first : String}
    {more : List String} (isStem : IsStem first)
    (parts : ∀ part ∈ more, Path.separator ∉ part.toList) :
    ∃ stem, IsStem stem ∧ g.output.fileName (first :: more) = nameOf stem := by
  refine ⟨".".intercalate (first :: more ++ if g.output.suffix = "" then [] else [g.output.suffix]),
    ?_, ?_⟩
  · rw [List.cons_append]
    refine isStem.intercalate fun part mem => ?_
    obtain own | last := List.mem_append.mp mem
    · exact parts part own
    · split at last
      · cases last
      · rw [List.mem_singleton.mp last]
        exact plain
  · rw [Output.fileName, String.intercalate_append_of_ne_nil (by simp) (List.cons_ne_nil _ _),
      String.intercalate_singleton, nameOf]
    rfl

/-- The files of a run are named as sources. -/
lemma exists_stem (plain : Path.separator ∉ g.config.fileNameSuffix.toList)
    (pascal : ∀ c ∈ compiled, c.model.className.IsPascal) (mem : f ∈ g.files compiled) :
    ∃ stem, IsStem stem ∧ f.name = nameOf stem := by
  rw [files] at mem
  split at mem
  case isTrue => cases mem
  case isFalse =>
    obtain inside | provider := List.mem_append.mp mem
    · obtain ⟨c, hc, own⟩ := List.mem_flatMap.mp inside
      have isStem := IsStem.ofPascal (pascal c hc)
      obtain rfl | typed := List.mem_cons.mp own
      · exact fileName_eq plain isStem (List.forall_mem_nil _)
      · obtain ⟨typed, -, rfl⟩ := Option.map_eq_some_iff.mp (Option.mem_toList.mp typed)
        exact fileName_eq plain isStem (by decide)
    · rw [providerFiles] at provider
      split at provider
      case isFalse => cases provider
      case isTrue =>
        rw [List.mem_singleton.mp provider]
        exact ⟨CSharp.typeProviderName, ⟨by decide, 'C', _, rfl, by decide⟩, rfl⟩

/-- A source is no document. -/
lemma not_isDocument {stem : String} (isStem : IsStem stem) {directory : Location} :
    ¬ SchemaSource.isDocument (directory ++ [nameOf stem]) := by
  rw [SchemaSource.isDocument, List.getLast?_concat, Option.bind_some, isStem.extension?]
  decide

/-- What an output that fills its directory does to the file tree leaves the documents alone. -/
lemma document_of_filled {files : List SourceFile} (filled : g.output.Filled files w after)
    (named : ∀ f ∈ files, ∃ stem, IsStem stem ∧ f.name = nameOf stem) {l : Location}
    {content : ByteArray} (there : w.entryAt? l = some (.file content))
    (document : SchemaSource.isDocument l) : after.entryAt? l = some (.file content) := by
  rw [filled.others l, there]
  · -- On the way to the directory there is no file.
    intro on
    obtain ⟨absent | directory, -⟩ := filled.directories l on
    · rw [there] at absent
      cases absent
    · rw [there] at directory
      cases directory
  · -- The files of the run are sources.
    rintro f mem rfl
    obtain ⟨stem, isStem, name⟩ := named f mem
    rw [name] at document
    exact not_isDocument isStem document

/-- A run without a class, and a dry run, write nothing. -/
lemma run_unchanged (quiet : (g.compile w).result = .ok [] ∨ g.dryRun) : (g.run w).2 = w := by
  cases ran : g.compile w with
  | mk ds result =>
    cases result with
    | error e => rw [run_of_early (endsEarly_iff.mpr ran)]
    | ok compiled =>
      rw [run_of_compiled ran]
      obtain none | dry := quiet
      · rw [ran] at none
        cases none
        rfl
      · rw [emit_of_dryRun dry]

/-- Where files are written, the directory is there with all of them and nothing else has
changed. -/
lemma filled_of_emit {paths : List Path}
    (plain : ∀ f ∈ g.files compiled, Path.IsFileName f.name) (full : g.files compiled ≠ [])
    (live : g.dryRun = false) (h : g.emit compiled w = (.ok paths, after)) :
    g.output.Filled (g.files compiled) w after := by
  rw [emit, if_neg (by rwa [List.isEmpty_iff])] at h
  exact Output.filled_of_writeAll plain full live h

/-- Where a stage in front of the writing fails, no content type is compiled or the run is dry, the
file tree stays as it was. Where a run that writes succeeds with a class, the directory of the
output is there with the last of the rendered files of each name, everything else is as it was but
for the directories that were missing, and so is every document. -/
theorem run_effect (g : Generation) (w : Workspace)
    (plain : Path.separator ∉ g.config.fileNameSuffix.toList) :
    (∀ ds e, g.EndsEarly w ds e → g.run w = (.error e, w)) ∧
    ((g.compile w).result = .ok [] ∨ g.dryRun → (g.run w).2 = w) ∧
    ∀ report after, g.dryRun = false → g.run w = (.ok report, after) → report.contentTypes ≠ 0 →
      ∃ files, (g.render w).result = .ok files ∧ g.output.Filled files w after ∧
        ∀ l content, w.entryAt? l = some (.file content) → SchemaSource.isDocument l →
          after.entryAt? l = some (.file content) := by
  refine ⟨fun ds e => run_of_early, run_unchanged, fun report after live h some => ?_⟩
  obtain ⟨compiled, ran, emitted, count⟩ := run_eq_ok.mp h
  obtain ⟨options, project, -, -, compiles⟩ := exists_project (congrArg Reporting.result ran)
  have full : g.files compiled ≠ [] := by
    rwa [Ne, files_eq_nil, ← List.length_eq_zero_iff, ← count]
  -- The names of the files are made of identifiers and of the suffix, so that none is a document.
  have named : ∀ f ∈ g.files compiled, ∃ stem, IsStem stem ∧ f.name = nameOf stem := by
    intro f mem
    refine exists_stem plain (fun c hc => ?_) mem
    obtain ⟨type, -, compiled⟩ := Project.exists_type_of_mem compiles hc
    exact (Project.wellNamed_model compiled).className
  have fileNames : ∀ f ∈ g.files compiled, Path.IsFileName f.name := by
    intro f mem
    obtain ⟨stem, isStem, name⟩ := named f mem
    rw [name]
    exact isStem.isFileName
  have filled := filled_of_emit fileNames full live emitted
  refine ⟨g.files compiled, by rw [render_of_compiled ran], filled, fun l content there => ?_⟩
  exact document_of_filled filled named there

/-- A generation of two content types with one class name, from a schema that is given. -/
def journal : Generation where
  config := { outputDir := ⟨"src/models"⟩ }
  source := .given {
    contentTypes := [
      { id := "t1", codename := "blog_post", name := "Post" },
      { id := "t2", codename := "blog__post", name := "Other post"
        elements := [{ codename := "title", kind := .text }] }]
    snippets := [] }
  dryRun := false

/-- The journal is written into directories of which one was missing. Of the two files with one
name the second stays, and a document beside them is as it was. -/
theorem journal_written :
    let document : Files.Node := .file "[]".toUTF8
    let w : Workspace := ⟨.dir [("src", .dir [("types.json", document)])], []⟩
    let path : Path := ⟨"src/models/BlogPost.Generated.cs"⟩
    ∃ report after first second, journal.run w = (.ok report, after) ∧
      report.paths = [path, path] ∧
      (journal.render w).result = .ok [first, second] ∧
      after.entryAt? ["src", "models"] = some .directory ∧
      after.read path = .ok second.content.toUTF8 ∧
      after.entryAt? ["src", "types.json"] = some (.file "[]".toUTF8) := by
  intro document w path
  have fine : ∃ report ∈ (journal.run w).1.toOption, report.contentTypes = 2 ∧
      report.paths = [path, path] := by
    decide
  obtain ⟨report, ran, count, paths⟩ := exists_eq_ok fine
  have live : journal.run w = (.ok report, (journal.run w).2) := Prod.ext ran rfl
  obtain ⟨files, rendered, filled, documents⟩ :=
    (run_effect journal w (by decide)).2.2 report _ rfl live (by rw [count]; decide)
  have names : ∃ files ∈ (journal.render w).result.toOption,
      files.map (·.name) = ["BlogPost.Generated.cs", "BlogPost.Generated.cs"] := by
    decide
  obtain ⟨files', rendered', names⟩ := exists_eq_ok names
  rw [rendered] at rendered'
  cases rendered'
  obtain ⟨first, rest, rfl, firstName, names⟩ := List.map_eq_cons_iff.mp names
  obtain ⟨second, rest, rfl, secondName, none⟩ := List.map_eq_cons_iff.mp names
  obtain rfl := List.map_eq_nil_iff.mp none
  obtain ⟨last, found, -, stands⟩ := filled.written second (by simp)
  have second_last : last = second := by
    simpa [SourceFile.lastNamed?_cons, SourceFile.lastNamed?] using found.symm
  refine ⟨report, _, first, second, live, paths, rendered, ?_, ?_, ?_⟩
  · exact (filled.directories ["src", "models"] (by decide)).2
  · rw [second_last, Output.pathOf, secondName] at stands
    exact stands
  · exact documents ["src", "types.json"] _ rfl (by decide)

end Generation

end ContentClasses
