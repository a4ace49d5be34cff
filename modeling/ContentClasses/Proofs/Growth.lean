import ContentClasses.Proofs.Failures
import ContentClasses.Proofs.Locality
import ContentClasses.Proofs.Runs

/-!
# Projects that grow

Content types and snippets that are added behind those of a project do not change what is found
there, since the first one that matches is taken. `Project.compile_extend` says that a compilation
that succeeds goes on to give and report the same in a larger project, and then what the new content
types give.
-/

namespace ContentClasses

/-- A reference that names a content type has the same answer among more of them. -/
lemma Reference.sameAnswer_of_alive {r : Reference} {types more : List ContentType}
    (alive : ¬ r.IsDead types) : SameAnswer types (types ++ more) r r := by
  cases found : types.find? (·.matchesReference r) with
  | none => exact absurd (List.find?_eq_none.mp found) alive
  | some type =>
    refine .found found ?_ rfl
    rw [List.find?_append, found, Option.some_or]

/-- An element whose snippet is there is expanded alike among more snippets. -/
lemma Element.concrete_append {e : Element} {snippets more : List Snippet} {elements : List Element}
    (h : e.concrete snippets = .ok elements) : e.concrete (snippets ++ more) = .ok elements := by
  by_cases kind : e.kind = .snippet
  · cases found : snippets.find? (·.codename == e.codename) with
    | none =>
      simp only [concrete, expand?, kind, if_true, found] at h
      cases h
    | some snippet =>
      simp only [concrete, expand?, kind, if_true, found] at h
      simp only [concrete, expand?, kind, if_true, List.find?_append, found, Option.some_or]
      exact h
  · simp only [concrete, expand?, kind, if_false] at h ⊢
    exact h

/-- More snippets do not change what the elements of a content type are, once all snippets are
there. -/
lemma ContentType.concreteElements_append {type : ContentType} {snippets more : List Snippet}
    {elements : List Element} (h : type.concreteElements snippets = .ok elements) :
    type.concreteElements (snippets ++ more) = .ok elements := by
  obtain ⟨parts, row, made⟩ := bind_eq_ok.mp h
  have rows : List.Forall₂ (fun e es => e.concrete (snippets ++ more) = .ok es)
      type.elements parts := (mapM_eq_ok.mp row).imp fun _ _ => Element.concrete_append
  exact bind_eq_ok.mpr ⟨parts, mapM_eq_ok.mpr rows, made⟩

namespace Project

/-- The project with more content types and snippets behind its own. -/
def extend (project : Project) (types : List ContentType) (snippets : List Snippet) : Project where
  contentTypes := project.contentTypes ++ types
  snippets := project.snippets ++ snippets

variable {project : Project} {options : Options} {types : List ContentType}
  {snippets : List Snippet} {codename : String} {className : Identifier} {classes grown : Classes}
  {front : List Element} {e : Element} {type : ContentType}
  {compiled : List CompiledContentType}

/-- An element that is added without a failure is added alike in a larger project. -/
lemma addElement_extend (there : project.contentTypes ≠ [])
    (base : classes.base = options.classModel codename className front)
    (h : (project.addElement options classes e).result = .ok grown) :
    (project.extend types snippets).addElement options classes e =
      project.addElement options classes e := by
  by_cases alive : ∀ r ∈ e.allowedTypes, ¬ r.IsDead project.contentTypes
  · have answers : List.Forall₂ (Reference.SameAnswer project.contentTypes
        (project.contentTypes ++ types)) e.allowedTypes e.allowedTypes :=
      List.forall₂_same.mpr fun r hr => Reference.sameAnswer_of_alive (alive r hr)
    have empty : project.contentTypes = [] ↔ project.contentTypes ++ types = [] := by simp [there]
    exact (addElement_alike (.refl e) (Element.typedLink_alike (.refl e) empty answers) _).symm
  · -- The reference that names nothing was not looked at, or the addition would have failed.
    have kept : ¬ project.DeadLink options front e := by
      intro link
      obtain ⟨passed, r, rest, references, found, dead⟩ := exists_first link.dead
      rw [addElement_of_dead there base link references found dead] at h
      cases h
    cases skip : options.skip? codename className front e with
    | some d => rw [addElement_of_skip base skip, addElement_of_skip base skip]
    | none =>
      have unseen : ¬ (options.typedLinks && e.kind.isItemReference) := by
        intro seen
        obtain ⟨on, links⟩ := Bool.and_eq_true_iff.mp seen
        exact kept ⟨on, links, Options.admits_iff.mpr skip, by simpa using alive⟩
      rw [addElement_of_new base skip, addElement_of_new base skip, if_neg unseen, if_neg unseen]

/-- Elements that are added in a schema are added in the same way in a larger one. -/
lemma foldlM_addElement_extend (there : project.contentTypes ≠ []) {es : List Element}
    (base : classes.base = options.classModel codename className front)
    (h : (es.foldlM (project.addElement options) classes).result = .ok grown) :
    es.foldlM ((project.extend types snippets).addElement options) classes =
      es.foldlM (project.addElement options) classes := by
  -- Each step succeeded in the smaller project, and what it reached is where the next one starts.
  induction es generalizing front classes with
  | nil => rfl
  | cons e es ih =>
    rw [List.foldlM_cons] at h
    obtain ⟨next, step, rest⟩ := Reporting.result_bind_eq_ok.mp h
    rw [List.foldlM_cons, List.foldlM_cons, addElement_extend there base step,
      Reporting.bind_of_ok step, Reporting.bind_of_ok step, ih (addElement_base base step) rest]

/-- A content type that does not fail is compiled alike in a larger project. -/
lemma compileContentType_extend (there : project.contentTypes ≠ [])
    {c? : Option CompiledContentType}
    (h : (project.compileContentType options type).result = .ok c?) :
    (project.extend types snippets).compileContentType options type =
      project.compileContentType options type := by
  cases named : Identifier.ofText? type.codename with
  | none => rw [compileContentType_of_unnamed named, compileContentType_of_unnamed named]
  | some className =>
    rw [compileContentType_of_named named] at h ⊢
    rw [compileContentType_of_named named]
    obtain ⟨elements, expansion, rest⟩ := Reporting.result_bind_eq_ok.mp h
    obtain ⟨classes, row, -⟩ := Reporting.result_bind_eq_ok.mp rest
    have larger : (Reporting.ofExcept
        (type.concreteElements (project.extend types snippets).snippets)).result = .ok elements :=
      ContentType.concreteElements_append expansion
    rw [Reporting.bind_of_ok larger, Reporting.bind_of_ok expansion,
      foldlM_addElement_extend there Classes.ofClassName_base row]
    rfl

/-- A content type that is compiled with its schema is compiled in the same way in a larger one. -/
lemma compileContentType_extend_of_mem (h : (project.compile options).result = .ok compiled)
    (mem : type ∈ project.contentTypes) :
    (project.extend types snippets).compileContentType options type =
      project.compileContentType options type := by
  obtain ⟨c?, own⟩ := compile_succeeds_iff.mp ⟨compiled, h⟩ type mem
  exact compileContentType_extend (List.ne_nil_of_mem mem) own

/-- Where the new content types are compiled up to one of them, all old ones are as well. -/
lemma extend_fine (h : (project.compile options).result = .ok compiled) {before : List ContentType}
    (fine : ∀ type ∈ before,
      ∃ c?, ((project.extend types snippets).compileContentType options type).result = .ok c?) :
    ∀ type ∈ project.contentTypes ++ before,
      ∃ c?, ((project.extend types snippets).compileContentType options type).result = .ok c? := by
  intro type mem
  obtain old | new := List.mem_append.mp mem
  · rw [compileContentType_extend_of_mem h old]
    exact compile_succeeds_iff.mp ⟨compiled, h⟩ type old
  · exact fine type new

/-- The old content types report in the larger schema what they report in the old one. -/
lemma extend_reported (h : (project.compile options).result = .ok compiled) :
    (project.contentTypes.flatMap fun type =>
        ((project.extend types snippets).compileContentType options type).reported) =
      (project.compile options).reported := by
  rw [compile_of_fine (compile_succeeds_iff.mp ⟨compiled, h⟩)]
  refine List.flatMap_congr fun type mem => ?_
  rw [compileContentType_extend_of_mem h mem]

/-- The old content types give in the larger schema the classes that they give in the old one. -/
lemma extend_compiled (h : (project.compile options).result = .ok compiled) :
    project.contentTypes.filterMap ((project.extend types snippets).outcome? options) =
      compiled := by
  have ran := h
  rw [compile_of_fine (compile_succeeds_iff.mp ⟨compiled, h⟩)] at h
  cases h
  refine List.filterMap_congr fun type mem => ?_
  rw [outcome?, compileContentType_extend_of_mem ran mem, outcome?]

/-- Where no new content type fails, the larger project goes on with what they report and give. -/
lemma compile_extend_of_fine (h : (project.compile options).result = .ok compiled)
    (fine : ∀ type ∈ types,
      ∃ c?, ((project.extend types snippets).compileContentType options type).result = .ok c?) :
    (project.extend types snippets).compile options =
      ⟨(project.compile options).reported ++ types.flatMap fun type =>
          ((project.extend types snippets).compileContentType options type).reported,
        .ok (compiled ++ types.filterMap ((project.extend types snippets).outcome? options))⟩ := by
  rw [← extend_reported h, ← List.flatMap_append]
  conv_rhs => rw [← extend_compiled h, ← List.filterMap_append]
  exact compile_of_fine (extend_fine h fine)

/-- The first new content type that fails ends the compilation of the larger project. -/
lemma compile_extend_of_error (h : (project.compile options).result = .ok compiled)
    {before after : List ContentType} (split : types = before ++ type :: after) {err : Error}
    (fine : ∀ b ∈ before,
      ∃ c?, ((project.extend types snippets).compileContentType options b).result = .ok c?)
    (fails : ((project.extend types snippets).compileContentType options type).result =
      .error err) :
    (project.extend types snippets).compile options =
      ⟨(project.compile options).reported ++
          before.flatMap (fun b =>
            ((project.extend types snippets).compileContentType options b).reported) ++
          ((project.extend types snippets).compileContentType options type).reported,
        .error err⟩ := by
  have order : (project.extend types snippets).contentTypes =
      (project.contentTypes ++ before) ++ type :: after := by
    rw [List.append_assoc, ← split]
    rfl
  rw [compile, order, Reporting.mapM_of_error (extend_fine h fine) fails, Reporting.error_bind,
    List.flatMap_append, extend_reported h]

/-- A compilation that succeeds stays as it is where content types and snippets are added behind
those of the project: the classes and diagnostics of the larger project begin with it, and those of
the new content types follow, or else one of the new content types fails, behind what the project
and the new content types in front of it report. -/
theorem compile_extend (h : (project.compile options).result = .ok compiled) :
    let larger := project.extend types snippets
    (∀ type ∈ project.contentTypes,
      larger.compileContentType options type = project.compileContentType options type) ∧
    ((∃ later, larger.compile options =
        ⟨(project.compile options).reported ++
            types.flatMap fun type => (larger.compileContentType options type).reported,
          .ok (compiled ++ later)⟩) ∨
      ∃ before type after err, types = before ++ type :: after ∧
        (∀ b ∈ before, ∃ c?, (larger.compileContentType options b).result = .ok c?) ∧
        (larger.compileContentType options type).result = .error err ∧
        larger.compile options =
          ⟨(project.compile options).reported ++
              before.flatMap (fun b => (larger.compileContentType options b).reported) ++
              (larger.compileContentType options type).reported, .error err⟩) := by
  intro larger
  refine ⟨fun type mem => compileContentType_extend_of_mem h mem, ?_⟩
  by_cases all : ∀ type ∈ types, ∃ c?, (larger.compileContentType options type).result = .ok c?
  · left
    exact ⟨_, compile_extend_of_fine h all⟩
  · right
    have failing : ∃ type ∈ types,
        ¬ ∃ c?, (larger.compileContentType options type).result = .ok c? := by simpa using all
    obtain ⟨before, type, after, split, succeed, fails⟩ := exists_first failing
    have fine : ∀ b ∈ before, ∃ c?, (larger.compileContentType options b).result = .ok c? :=
      fun b mem => not_not.mp (succeed b mem)
    cases ends : (larger.compileContentType options type).result with
    | ok c? => exact absurd ⟨c?, ends⟩ fails
    | error err =>
      exact ⟨before, type, after, err, split, fine, ends,
        compile_extend_of_error h split fine ends⟩

/-- A blog whose post links to its author by id, and repeats this element with a reference that
names no content type of the blog and is not looked at. -/
def blog : Project where
  contentTypes := [
    { id := "t1", codename := "post", name := "Post"
      elements := [
        { codename := "seo", kind := .snippet },
        { codename := "author", kind := .linkedItems, allowedTypes := [.id "t2"] },
        { codename := "author", kind := .linkedItems, allowedTypes := [.id "t3"] }] },
    { id := "t2", codename := "writer", name := "Writer" }]
  snippets := [{ codename := "seo", elements := [{ codename := "title", kind := .text }] }]

/-- The post keeps its classes where another content type has the id of its author, another one is
the content type that was missing, and another snippet has the codename of its snippet. -/
theorem blog_extended :
    let options : Options := { typedLinks := true }
    let types : List ContentType := [{ id := "t2", codename := "editor", name := "Editor" },
      { id := "t3", codename := "guest", name := "Guest" }]
    let snippets : List Snippet :=
      [{ codename := "seo", elements := [{ codename := "keywords", kind := .taxonomy }] }]
    ∃ compiled later, (blog.compile options).result = .ok compiled ∧
      compiled.map (·.typed?.map (·.properties.map (·.codename))) =
        [some ["author_Writer"], none] ∧
      ((blog.extend types snippets).compile options).result = .ok (compiled ++ later) := by
  intro options types snippets
  have fine : ∃ compiled ∈ (blog.compile options).result.toOption,
      compiled.map (·.typed?.map (·.properties.map (·.codename))) =
        [some ["author_Writer"], none] := by decide
  have succeeds : ((blog.extend types snippets).compile options).result.toOption.isSome := by decide
  obtain ⟨compiled, ran, links⟩ := exists_eq_ok fine
  obtain ⟨-, ⟨later, grown⟩ | ⟨before, type, after, err, -, -, -, fails⟩⟩ :=
    @compile_extend blog options types snippets compiled ran
  · exact ⟨compiled, later, ran, links, by rw [grown]⟩
  · rw [fails] at succeeds
    cases succeeds

end Project

end ContentClasses
