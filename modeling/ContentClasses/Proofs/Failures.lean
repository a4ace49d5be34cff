import ContentClasses.Proofs.BaseModel
import ContentClasses.Proofs.Links

/-!
# When a compilation fails

A compilation fails for a snippet that is missing, or for an allowed content type that is missing
and that is looked at: the one of an element that is the first to give a property of its codename.
`Project.compile_fails_exactly` says at which content type and element a compilation ends, with
which error, and what it has reported by then.
-/

namespace ContentClasses

namespace Options
variable {options : Options} {codename : String} {className : Identifier} {front : List Element}
  {e : Element}

/-- An element gives a property, and no element in front of it gives one of the same codename. -/
structure Admits (options : Options) (front : List Element) (e : Element) : Prop where
  given : (options.property? e).isSome
  new : ∀ b ∈ front, (options.property? b).isSome → b.codename ≠ e.codename

/-- The elements that are admitted are those that are not left out. -/
lemma admits_iff :
    options.Admits front e ↔ options.skip? codename className front e = none := by
  rw [skip?_eq_none]
  constructor
  · intro admits
    obtain ⟨p, h⟩ := Option.isSome_iff_exists.mp admits.given
    refine ⟨p, h, fun taken => ?_⟩
    obtain ⟨b, hb, given, same⟩ := mem_candidates_codename.mp taken
    exact admits.new b hb given (same.trans (property?_eq_some h).2.2)
  · rintro ⟨p, h, free⟩
    refine ⟨by rw [h]; rfl, fun b hb given same => ?_⟩
    exact free (mem_candidates_codename.mpr
      ⟨b, hb, given, same.trans (property?_eq_some h).2.2.symm⟩)

end Options

namespace Project

/-- The typed link of an element is looked at, and a content type that it allows is not there. -/
structure DeadLink (project : Project) (options : Options) (front : List Element) (e : Element) :
    Prop where
  on : options.typedLinks
  links : e.kind.isItemReference
  admits : options.Admits front e
  dead : ∃ r ∈ e.allowedTypes, r.IsDead project.contentTypes

/-- A content type with a class name lacks a snippet or has a link to a content type that is not
there. -/
structure Fails (project : Project) (options : Options) (type : ContentType) : Prop where
  named : (Identifier.ofText? type.codename).isSome
  cause : (∃ e ∈ type.elements, e.LacksSnippet project.snippets) ∨
    ∃ front e back, type.expanded project.snippets = front ++ e :: back ∧
      project.DeadLink options front e

/-- Where and with which error a content type fails: at its first missing snippet before any of its
elements is added, or else behind the elements in front of its first dead link, with the first
reference of this link to a content type that is not there. -/
inductive FailsAt (project : Project) (options : Options) (type : ContentType) :
    List Element → Error → Prop where
  | missingSnippet {front back : List Element} {e : Element}
      (split : type.elements = front ++ e :: back)
      (complete : ∀ b ∈ front, ¬ b.LacksSnippet project.snippets)
      (lacks : e.LacksSnippet project.snippets) :
      FailsAt project options type [] (.missingSnippet e.codename)
  | deadLink {front back : List Element} {e : Element} {passed rest : List Reference}
      {r : Reference} (complete : ∀ e ∈ type.elements, ¬ e.LacksSnippet project.snippets)
      (split : type.expanded project.snippets = front ++ e :: back)
      (alive : ∀ seen b later, front = seen ++ b :: later → ¬ project.DeadLink options seen b)
      (link : project.DeadLink options front e)
      (references : e.allowedTypes = passed ++ r :: rest)
      (found : ∀ s ∈ passed, ¬ s.IsDead project.contentTypes)
      (dead : r.IsDead project.contentTypes) :
      FailsAt project options type front (.allowedTypeNotFound r e.codename)

variable {project : Project} {options : Options} {type : ContentType} {className : Identifier}
  {codename : String} {classes grown : Classes} {front : List Element} {e : Element}

/-- A dead link ends the compilation at its element, before anything is reported about it. -/
lemma addElement_of_dead (there : project.contentTypes ≠ [])
    (base : classes.base = options.classModel codename className front)
    (link : project.DeadLink options front e) {passed rest : List Reference} {r : Reference}
    (references : e.allowedTypes = passed ++ r :: rest)
    (found : ∀ s ∈ passed, ¬ s.IsDead project.contentTypes)
    (dead : r.IsDead project.contentTypes) :
    project.addElement options classes e = ⟨[], .error (.allowedTypeNotFound r e.codename)⟩ := by
  rw [addElement_of_new base (Options.admits_iff.mp link.admits), link.on, link.links,
    Bool.and_true, if_pos rfl]
  exact addTypedLink_of_dead link.links there link.on references found dead

/-- An element without a dead link is added. -/
lemma addElement_of_alive (there : project.contentTypes ≠ [])
    (base : classes.base = options.classModel codename className front)
    (alive : ¬ project.DeadLink options front e) :
    ∃ grown, (project.addElement options classes e).result = .ok grown := by
  cases skip : options.skip? codename className front e with
  | some d =>
    rw [addElement_of_skip base skip]
    exact ⟨_, rfl⟩
  | none =>
    rw [addElement_of_new base skip]
    split
    case isFalse => exact ⟨_, rfl⟩
    case isTrue looked =>
      obtain ⟨on, links⟩ := Bool.and_eq_true_iff.mp looked
      apply addTypedLink_of_alive links there on
      intro s hs dead
      exact alive ⟨on, links, Options.admits_iff.mpr skip, s, hs, dead⟩

/-- A row of elements without dead links is added, each behind those in front of it. -/
lemma foldlM_addElement_of_alive (there : project.contentTypes ≠ []) {es : List Element}
    (base : classes.base = options.classModel codename className front)
    (alive : ∀ seen b later, es = seen ++ b :: later →
      ¬ project.DeadLink options (front ++ seen) b) :
    ∃ grown, (es.foldlM (project.addElement options) classes).result = .ok grown := by
  induction es generalizing front classes with
  | nil => exact ⟨classes, rfl⟩
  | cons e es ih =>
    have first := alive [] e es rfl
    rw [List.append_nil] at first
    obtain ⟨next, step⟩ := addElement_of_alive there base first
    rw [List.foldlM_cons, Reporting.result_bind, step]
    refine ih (addElement_base base step) fun seen b later split => ?_
    rw [List.append_assoc, List.singleton_append]
    exact alive (e :: seen) b later (by rw [split, List.cons_append])

/-- A row of elements ends at its first dead link, and what the elements in front of it report is
all that is reported. -/
lemma foldlM_addElement_of_dead (there : project.contentTypes ≠ []) {back : List Element}
    (reached : (front.foldlM (project.addElement options)
      (Classes.ofClassName codename className)).result = .ok classes)
    (link : project.DeadLink options front e) {passed rest : List Reference} {r : Reference}
    (references : e.allowedTypes = passed ++ r :: rest)
    (found : ∀ s ∈ passed, ¬ s.IsDead project.contentTypes)
    (dead : r.IsDead project.contentTypes) :
    (front ++ e :: back).foldlM (project.addElement options)
        (Classes.ofClassName codename className) =
      ⟨(front.foldlM (project.addElement options)
          (Classes.ofClassName codename className)).reported,
        .error (.allowedTypeNotFound r e.codename)⟩ := by
  have ends := addElement_of_dead there (reached_base reached) link references found dead
  rw [List.foldlM_append, Reporting.bind_of_ok reached, List.foldlM_cons, ends,
    Reporting.error_bind, List.append_nil]

/-- A content type that fails does so at the first element that makes it fail. -/
lemma Fails.failsAt (fails : project.Fails options type) :
    ∃ seen err, project.FailsAt options type seen err := by
  by_cases lacking : ∃ e ∈ type.elements, e.LacksSnippet project.snippets
  · obtain ⟨front, e, back, split, complete, lacks⟩ := exists_first lacking
    exact ⟨[], _, .missingSnippet split complete lacks⟩
  · have complete : ∀ e ∈ type.elements, ¬ e.LacksSnippet project.snippets := by
      simpa using lacking
    obtain ⟨front, e, back, split, alive, link⟩ :=
      exists_first_split (fails.cause.resolve_left lacking)
    obtain ⟨passed, r, rest, references, found, dead⟩ := exists_first link.dead
    exact ⟨front, _, .deadLink complete split alive link references found dead⟩

/-- A content type that fails at a place ends there, and has reported what the elements in front
of it report. -/
lemma compileContentType_of_failsAt (there : project.contentTypes ≠ [])
    (named : Identifier.ofText? type.codename = some className) {seen : List Element} {err : Error}
    (failsAt : project.FailsAt options type seen err) :
    project.compileContentType options type =
      ⟨(seen.foldlM (project.addElement options)
          (Classes.ofClassName type.codename className)).reported, .error err⟩ := by
  cases failsAt with
  | missingSnippet split complete lacks =>
    exact compileContentType_of_lacks named split complete lacks
  | deadLink complete split alive link references found dead =>
    obtain ⟨classes, reached⟩ := foldlM_addElement_of_alive there Classes.ofClassName_base alive
    rw [compileContentType_of_complete named complete, split,
      foldlM_addElement_of_dead there reached link references found dead, Reporting.error_bind]

/-- Any other content type is compiled or left out without a failure. -/
lemma compileContentType_of_not_fails (there : project.contentTypes ≠ [])
    (fine : ¬ project.Fails options type) :
    ∃ c?, (project.compileContentType options type).result = .ok c? := by
  cases named : Identifier.ofText? type.codename with
  | none =>
    rw [compileContentType_of_unnamed named]
    exact ⟨none, rfl⟩
  | some className =>
    have isNamed : (Identifier.ofText? type.codename).isSome := by
      rw [named]
      rfl
    have complete : ∀ e ∈ type.elements, ¬ e.LacksSnippet project.snippets :=
      fun e he lacks => fine ⟨isNamed, .inl ⟨e, he, lacks⟩⟩
    have alive : ∀ seen b later, type.expanded project.snippets = seen ++ b :: later →
        ¬ project.DeadLink options seen b :=
      fun seen b later split link => fine ⟨isNamed, .inr ⟨seen, b, later, split, link⟩⟩
    obtain ⟨classes, row⟩ := foldlM_addElement_of_alive there Classes.ofClassName_base alive
    rw [compileContentType_of_complete named complete, Reporting.bind_of_ok row]
    exact ⟨_, rfl⟩

/-- A schema in which no content type fails is compiled. -/
lemma compile_of_not_fails (fine : ∀ type ∈ project.contentTypes, ¬ project.Fails options type) :
    ∃ compiled, (project.compile options).result = .ok compiled := by
  have each : ∀ type ∈ project.contentTypes,
      ∃ c?, (project.compileContentType options type).result = .ok c? :=
    fun type mem => compileContentType_of_not_fails (List.ne_nil_of_mem mem) (fine type mem)
  obtain ⟨results, row⟩ := mapM_of_ok each
  rw [compile, Reporting.result_bind, Reporting.result_mapM, row]
  exact ⟨_, rfl⟩

/-- A compilation ends at the first content type that fails, with its error. -/
lemma compile_of_failsAt {before after : List ContentType} {seen : List Element} {err : Error}
    (split : project.contentTypes = before ++ type :: after)
    (fine : ∀ b ∈ before, ¬ project.Fails options b)
    (named : Identifier.ofText? type.codename = some className)
    (failsAt : project.FailsAt options type seen err) :
    project.compile options =
      ⟨before.flatMap (fun b => (project.compileContentType options b).reported) ++
          (seen.foldlM (project.addElement options)
            (Classes.ofClassName type.codename className)).reported, .error err⟩ := by
  have there : project.contentTypes ≠ [] := by simp [split]
  have ends := compileContentType_of_failsAt there named failsAt
  have succeed : ∀ b ∈ before, ∃ c?, (project.compileContentType options b).result = .ok c? :=
    fun b hb => compileContentType_of_not_fails there (fine b hb)
  rw [compile, split, Reporting.mapM_of_error succeed (congrArg (·.result) ends), ends,
    Reporting.error_bind]

/-- A compilation fails exactly when one of its content types does. It ends at the first one, with
the error of the first missing snippet of this content type, or else of the first reference of its
first dead link to a content type that is not there. No other error is given, and what is reported
is what the content types in front of it report, and then the elements in front of the failure. -/
theorem compile_fails_exactly :
    ((∃ err, (project.compile options).result = .error err) ↔
        ∃ type ∈ project.contentTypes, project.Fails options type) ∧
      ∀ err, (project.compile options).result = .error err →
        ((∃ snippet, err = .missingSnippet snippet) ∨
          ∃ reference element, err = .allowedTypeNotFound reference element) ∧
        ∃ before type after className seen,
          project.contentTypes = before ++ type :: after ∧
          (∀ b ∈ before, ¬ project.Fails options b) ∧
          Identifier.ofText? type.codename = some className ∧
          project.FailsAt options type seen err ∧
          (project.compile options).reported =
            before.flatMap (fun b => (project.compileContentType options b).reported) ++
              (seen.foldlM (project.addElement options)
                (Classes.ofClassName type.codename className)).reported := by
  by_cases failing : ∃ type ∈ project.contentTypes, project.Fails options type
  · -- The first content type that fails ends the run, at its first element that does.
    obtain ⟨before, type, after, split, fine, fails⟩ := exists_first failing
    obtain ⟨className, named⟩ := Option.isSome_iff_exists.mp fails.named
    obtain ⟨seen, err, failsAt⟩ := fails.failsAt
    have ran := compile_of_failsAt split fine named failsAt
    constructor
    · exact ⟨fun _ => failing, fun _ => ⟨err, by rw [ran]⟩⟩
    · intro err' h
      rw [ran] at h ⊢
      cases h
      refine ⟨?_, before, type, after, className, seen, split, fine, named, failsAt, rfl⟩
      cases failsAt with
      | missingSnippet => exact .inl ⟨_, rfl⟩
      | deadLink => exact .inr ⟨_, _, rfl⟩
  · have fine : ∀ type ∈ project.contentTypes, ¬ project.Fails options type :=
      fun type mem fails => failing ⟨type, mem, fails⟩
    obtain ⟨compiled, ran⟩ := compile_of_not_fails fine
    rw [ran]
    constructor
    · constructor
      · rintro ⟨err, h⟩
        cases h
      · exact fun h => absurd h failing
    · intro err h
      cases h

/-- A page that allows a content type of an id that none has ends the compilation, behind what the
article and its own repeated title report. -/
theorem page_fails :
    let page : ContentType :=
      { id := "t2", codename := "page", name := "Page"
        elements := [
          { codename := "title", kind := .text },
          { codename := "title", kind := .text },
          { codename := "related", kind := .linkedItems
            allowedTypes := [.codename "article", .id "t9", .id "t8"] }] }
    let project := { magazine with contentTypes := [article, page] }
    let options : Options := { typedLinks := true }
    (project.compile options).result = .error (.allowedTypeNotFound (.id "t9") "related") ∧
      (project.compile options).reported.getLast? = some (.duplicateElement "Page" "title") ∧
      ∃ type ∈ project.contentTypes, project.Fails options type := by
  intro page project options
  have ends : (project.compile options).result =
      .error (.allowedTypeNotFound (.id "t9") "related") := by decide
  exact ⟨ends, by decide, compile_fails_exactly.1.mp ⟨_, ends⟩⟩

end Project

end ContentClasses
