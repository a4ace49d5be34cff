import ContentClasses.Proofs.Runs

/-!
# What a compilation reports

Without typed links, the diagnostics of a content type are those with which its elements are left
out, each behind the ones in front of it. `Project.compiled_reports_exactly` says that a compilation
reports these and no others, and that every element is either a property or a diagnostic.
-/

namespace ContentClasses

namespace Options

/-- The diagnostics with which a row of elements is left out behind the elements in front of it. -/
def skips (options : Options) (codename : String) (className : Identifier) (front : List Element) :
    List Element → List Diagnostic
  | [] => []
  | e :: es =>
    (options.skip? codename className front e).toList ++
      options.skips codename className (front ++ [e]) es

/-- The diagnostics of a content type without typed links: one for itself where it has no class
name, and those of its elements otherwise. -/
def typeDiagnostics (options : Options) (snippets : List Snippet) (type : ContentType) :
    List Diagnostic :=
  match Identifier.ofText? type.codename with
  | none => [.skippedContentType type.codename]
  | some className => options.skips type.codename className [] (type.expanded snippets)

variable (options : Options) (codename : String) (className : Identifier)

/-- One element is either a constant of the class or a diagnostic. -/
lemma classModel_append_length (front : List Element) (e : Element) :
    (options.classModel codename className (front ++ [e])).constants.length +
        (options.skip? codename className front e).toList.length =
      (options.classModel codename className front).constants.length + 1 := by
  cases skip : options.skip? codename className front e with
  | none =>
    obtain ⟨p, h, free⟩ := skip?_eq_none.mp skip
    rw [classModel_append_of_free h free, List.length_append]
    rfl
  | some d =>
    obtain h | ⟨p, h, taken, -⟩ := cases_of_skip? skip
    · rw [classModel_append_of_none h]
      rfl
    · rw [classModel_append_of_taken h taken]
      rfl

/-- Every element gives a constant or is skipped. -/
lemma classModel_appends_length (front es : List Element) :
    (options.classModel codename className (front ++ es)).constants.length +
        (options.skips codename className front es).length =
      (options.classModel codename className front).constants.length + es.length := by
  induction es generalizing front with
  | nil => rw [List.append_nil, skips, List.length_nil, List.length_nil]
  | cons e es ih =>
    have step := classModel_append_length options codename className front e
    have rest := ih (front ++ [e])
    rw [List.append_assoc, List.singleton_append] at rest
    rw [skips, List.length_append, List.length_cons]
    omega

end Options

namespace Project
variable {project : Project} {options : Options} {type : ContentType} {className : Identifier}
  {codename : String} {classes : Classes} {front : List Element} {e : Element}
  {compiled : List CompiledContentType}

/-- Without typed links, an element is added or left out, and reported in the second case. -/
lemma addElement_of_untyped (off : options.typedLinks = false)
    (base : classes.base = options.classModel codename className front) :
    project.addElement options classes e =
      ⟨(options.skip? codename className front e).toList,
        .ok { classes with base := options.classModel codename className (front ++ [e]) }⟩ := by
  cases skip : options.skip? codename className front e with
  | none =>
    rw [addElement_of_new base skip, off, Bool.false_and, if_neg Bool.false_ne_true]
    rfl
  | some d =>
    rw [addElement_of_skip base skip]
    rfl

/-- Without typed links, elements are added one after the other and never fail. -/
lemma foldlM_addElement_of_untyped (off : options.typedLinks = false) {es : List Element}
    (base : classes.base = options.classModel codename className front) :
    es.foldlM (project.addElement options) classes =
      ⟨options.skips codename className front es,
        .ok { classes with base := options.classModel codename className (front ++ es) }⟩ := by
  induction es generalizing front classes with
  | nil =>
    rw [List.append_nil, ← base]
    rfl
  | cons e es ih =>
    rw [List.foldlM_cons, addElement_of_untyped off base, Reporting.ok_bind, ih rfl,
      List.append_assoc, List.singleton_append]
    rfl

/-- Without typed links, a content type whose snippets are all there reports its own diagnostics
and those of its elements, and gives a class if it has a name for one. -/
lemma compileContentType_of_untyped (off : options.typedLinks = false)
    (complete : (Identifier.ofText? type.codename).isSome →
      ∀ e ∈ type.elements, ¬ e.LacksSnippet project.snippets) :
    project.compileContentType options type =
      ⟨options.typeDiagnostics project.snippets type,
        .ok ((Identifier.ofText? type.codename).map fun className =>
          (addSystem options { Classes.ofClassName type.codename className with
            base := options.classModel type.codename className
              (type.expanded project.snippets) }).toCompiled)⟩ := by
  rw [Options.typeDiagnostics]
  cases named : Identifier.ofText? type.codename with
  | none =>
    rw [compileContentType_of_unnamed named]
    rfl
  | some className =>
    rw [compileContentType_of_complete named (complete (by rw [named]; rfl)),
      foldlM_addElement_of_untyped off Classes.ofClassName_base, Reporting.ok_bind]
    simp

/-- The elements of a content type that is compiled are its properties and its diagnostics. -/
lemma compiled_length {c : CompiledContentType}
    (h : (project.compileContentType options type).result = .ok (some c)) :
    ∃ own, c.model.properties = own ++ options.implicitProperties (type.expanded project.snippets) ∧
      (type.expanded project.snippets).length =
        own.length + (options.typeDiagnostics project.snippets type).length := by
  obtain ⟨className, classes, named, complete, row, rfl⟩ := compileContentType_eq_some h
  have count := options.classModel_appends_length type.codename className []
    (type.expanded project.snippets)
  refine ⟨(options.classModel type.codename className (type.expanded project.snippets)).properties,
    ?_, ?_⟩
  · rw [Classes.toCompiled_model, addSystem_base (reached_base row)]
  · rw [Options.typeDiagnostics, named, Options.classModel_length]
    exact (count.trans (Nat.zero_add _)).symm

/-- A compilation without typed links that succeeds reports the diagnostics of its content types
and nothing else. It gives a class for each content type that has a class name, and each element
of such a content type is either a property of its class or a diagnostic. -/
theorem compiled_reports_exactly (off : options.typedLinks = false)
    (h : (project.compile options).result = .ok compiled) :
    (project.compile options).reported =
        project.contentTypes.flatMap (options.typeDiagnostics project.snippets) ∧
      List.Forall₂
        (fun type c =>
          (project.compileContentType options type).result = .ok (some c) ∧
            ∃ own, c.model.properties =
                own ++ options.implicitProperties (type.expanded project.snippets) ∧
              (type.expanded project.snippets).length =
                own.length + (options.typeDiagnostics project.snippets type).length)
        (project.contentTypes.filter fun type => (Identifier.ofText? type.codename).isSome)
        compiled := by
  obtain ⟨reported, results, rfl, rows⟩ := compile_eq_ok h
  have each : ∀ type c?, (project.compileContentType options type).result = .ok c? →
      (project.compileContentType options type).reported =
          options.typeDiagnostics project.snippets type ∧
        c?.isSome = (Identifier.ofText? type.codename).isSome := by
    intro type c? ran
    have untyped := compileContentType_of_untyped off fun named =>
      complete_of_ok (Option.some_get named).symm ran
    rw [untyped] at ran ⊢
    cases ran
    exact ⟨rfl, Option.isSome_map⟩
  constructor
  · rw [reported]
    refine List.flatMap_congr fun type mem => ?_
    obtain ⟨i, hi, rfl⟩ := List.mem_iff_getElem.mp mem
    have ran := rows.get hi (rows.length_eq ▸ hi)
    exact (each _ _ ran).1
  · refine (forall₂_reduceOption rows fun type c? ran => (each type c? ran).2).imp ?_
    exact fun type c ran => ⟨ran, compiled_length ran⟩

/-- Of the seven elements of the article three are properties, and four are reported. A content
type without a class name is reported and nothing else. -/
theorem magazine_reports :
    let broken : ContentType :=
      { id := "t2", codename := "$^123", name := "Broken"
        elements := [{ codename := "--", kind := .text }] }
    let project := { magazine with contentTypes := [article, broken] }
    ∃ c, (project.compile {}).result = .ok [c] ∧ c.model.properties.length = 3 ∧
      (project.compile {}).reported =
        [.invalidElementIdentifier "article" "--",
          .unknownElementType "hologram" "Article" "hero",
          .duplicateElement "Article" "title",
          .duplicateElement "Article" "system",
          .skippedContentType "$^123"] := by
  intro broken project
  have fine : (project.compile {}).result.toOption.isSome := by decide
  cases ran : (project.compile {}).result with
  | error err =>
    rw [ran] at fine
    cases fine
  | ok compiled =>
    obtain ⟨reported, rows⟩ := compiled_reports_exactly rfl ran
    have named : (project.contentTypes.filter fun type =>
        (Identifier.ofText? type.codename).isSome) = [article] := by decide
    rw [named] at rows
    obtain ⟨c, cs, ⟨-, own, properties, count⟩, alone, rfl⟩ := List.forall₂_cons_left_iff.mp rows
    cases alone
    have implicit : Options.implicitProperties {} (article.expanded project.snippets) = [] := by
      decide
    have elements : (article.expanded project.snippets).length = 7 := by decide
    have diagnostics : (Options.typeDiagnostics {} project.snippets article).length = 4 := by decide
    refine ⟨c, rfl, ?_, reported.trans (by decide)⟩
    rw [properties, implicit, List.append_nil]
    omega

end Project

end ContentClasses
