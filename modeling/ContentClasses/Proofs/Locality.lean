import ContentClasses.Proofs.BaseModel
import ContentClasses.Proofs.Links
import ContentClasses.Proofs.TwoRuns

/-!
# What a content type depends on

Of a project, the compilation of a content type reads the codenames and kinds of its elements, with
their ids and limits, and the codenames of the content types that its references name.
`Project.compileContentType_local` says that nothing else makes a difference: two content types
that agree in this are compiled to the same, each in its own project.
-/

namespace ContentClasses

/-- Two elements agree but for their names and for the references to content types they allow. -/
structure Element.SameShape (e twin : Element) : Prop where
  codename : e.codename = twin.codename
  kind : e.kind = twin.kind
  id? : e.id? = twin.id?
  externalId? : e.externalId? = twin.externalId?
  limit? : e.limit? = twin.limit?

lemma Element.SameShape.refl (e : Element) : e.SameShape e :=
  ⟨rfl, rfl, rfl, rfl, rfl⟩

/-- Two references have the same answer, each among its own content types: the first ones that they
name have the same codename, or they are one reference that names none. -/
inductive Reference.SameAnswer (types others : List ContentType) :
    Reference → Reference → Prop where
  | found {r s : Reference} {type other : ContentType}
      (left : types.find? (·.matchesReference r) = some type)
      (right : others.find? (·.matchesReference s) = some other)
      (codename : type.codename = other.codename) : SameAnswer types others r s
  | dead {r : Reference} (left : r.IsDead types) (right : r.IsDead others) :
      SameAnswer types others r r

/-- The elements of two snippets agree, one by one. -/
def Snippet.SameShape (snippet twin : Snippet) : Prop :=
  List.Forall₂ Element.SameShape snippet.elements twin.elements

/-- Snippets of one shape have elements of one shape in them, in pairs. -/
lemma Snippet.SameShape.content {snippet twin : Snippet} (shape : snippet.SameShape twin) :
    List.Forall₂ Element.SameShape snippet.content twin.content := by
  refine List.rel_filter (fun e e' same => ?_) shape
  simp only [same.kind]

/-- Elements of one shape give the same property. -/
lemma Property.ofElement_alike {e twin : Element} (shape : e.SameShape twin) :
    Property.ofElement e = Property.ofElement twin := by
  funext typeName
  rw [ofElement, ofElement, shape.codename, shape.id?, shape.externalId?]

namespace Element
variable {e twin : Element} {types others : List ContentType} {options : Options}
  {r s : Reference} {type other : ContentType} {dialect : Dialect}

/-- Elements of one shape become concrete alike, where their snippets have one shape. -/
lemma concrete_alike {snippets others : List Snippet} (shape : e.SameShape twin)
    (found : e.kind = .snippet → Option.Rel Snippet.SameShape
      (snippets.find? (·.codename == e.codename)) (others.find? (·.codename == e.codename))) :
    EndAlike (List.Forall₂ SameShape) (e.concrete snippets) (twin.concrete others) := by
  rw [concrete, concrete, expand?, expand?, ← shape.kind, ← shape.codename]
  by_cases kind : e.kind = .snippet
  · rw [if_pos kind, if_pos kind]
    -- Of the two lists of snippets only the answers to this lookup count.
    have answer := found kind
    generalize snippets.find? (·.codename == e.codename) = left at answer
    generalize others.find? (·.codename == e.codename) = right at answer
    cases answer with
    | none => exact .error
    | some same => exact .ok same.content
  · rw [if_neg kind, if_neg kind]
    refine .ok ?_
    split
    · exact .nil
    · exact .cons shape .nil

/-- References that are answered in the same way are resolved to content types of one codename. -/
lemma resolve_alike (same : e.codename = twin.codename)
    (answer : Reference.SameAnswer types others r s) :
    EndAlike (·.codename = ·.codename) (e.resolve types r) (twin.resolve others s) := by
  cases answer with
  | found left right codename =>
    rw [resolve, resolve, left, right]
    exact .ok codename
  | dead left right =>
    rw [resolve_of_dead left, resolve_of_dead right, same]
    exact .error

/-- A link to a content type depends on its codename, and on the shape of the element. -/
lemma linkTo_alike (shape : e.SameShape twin) (same : type.codename = other.codename) :
    e.linkTo type dialect = twin.linkTo other dialect := by
  simp only [linkTo, Property.ofSingleLink, Property.ofCollectionLink, collectionCodename, same,
    shape.codename, shape.limit?]

/-- Elements that agree have the same typed link where their references have the same answers. -/
lemma typedLink_alike (shape : e.SameShape twin) (empty : types = [] ↔ others = [])
    (answers : List.Forall₂ (Reference.SameAnswer types others) e.allowedTypes twin.allowedTypes) :
    e.typedLink types options = twin.typedLink others options := by
  have allowed : EndAlike (List.Forall₂ (·.codename = ·.codename))
      (e.resolveAllowed types) (twin.resolveAllowed others) :=
    .mapM (answers.imp fun _ _ answer => resolve_alike shape.codename answer)
  have sameEmpty : types.isEmpty = others.isEmpty := by
    rw [Bool.eq_iff_iff, List.isEmpty_iff, List.isEmpty_iff, empty]
  rw [typedLink, typedLink, shape.kind, shape.codename, sameEmpty]
  congr 3
  refine (allowed.bind (S := Eq) fun targets twins same => ?_).eq
  cases same with
  | nil => exact .ok rfl
  | cons head tail =>
    cases tail with
    | nil =>
      show EndAlike Eq (some <$> e.linkTo _ _) (some <$> twin.linkTo _ _)
      rw [linkTo_alike shape head]
      exact .refl _
    | cons => exact .ok rfl

end Element

/-- The elements of two content types are alike once their snippets are expanded, where the
elements and the snippets that they refer to are. -/
lemma ContentType.concreteElements_alike {type twin : ContentType} {snippets others : List Snippet}
    (shape : List.Forall₂ Element.SameShape type.elements twin.elements)
    (found : ∀ e ∈ type.elements, e.kind = .snippet → Option.Rel Snippet.SameShape
      (snippets.find? (·.codename == e.codename)) (others.find? (·.codename == e.codename))) :
    EndAlike (List.Forall₂ Element.SameShape) (type.concreteElements snippets)
      (twin.concreteElements others) := by
  have rows := (List.forall₂_and_left ..).mpr ⟨found, shape⟩
  have parts : EndAlike (List.Forall₂ (List.Forall₂ Element.SameShape))
      (type.elements.mapM (·.concrete snippets)) (twin.elements.mapM (·.concrete others)) :=
    .mapM (rows.imp fun e e' row => Element.concrete_alike row.2 row.1)
  exact parts.bind fun _ _ same => .ok (List.rel_flatten same)

namespace Project
variable {project other : Project} {options : Options} {type twin : ContentType}
  {e e' : Element}

/-- Elements of one shape are added in the same way, if their links are answered in the same way. -/
lemma addElement_alike (shape : e.SameShape e')
    (link : e.typedLink project.contentTypes options = e'.typedLink other.contentTypes options)
    (classes : Classes) :
    project.addElement options classes e = other.addElement options classes e' := by
  simp only [addElement, addBase, addTypedLink, link, Property.ofElement_alike shape, shape.kind,
    shape.codename]

/-- Rows of elements that agree are added alike where their references have the same answers. -/
lemma foldlM_addElement_alike (empty : project.contentTypes = [] ↔ other.contentTypes = [])
    {es twins : List Element}
    (rows : List.Forall₂ (fun e e' =>
      List.Forall₂ (Reference.SameAnswer project.contentTypes other.contentTypes)
        e.allowedTypes e'.allowedTypes ∧ e.SameShape e') es twins) (classes : Classes) :
    es.foldlM (project.addElement options) classes =
      twins.foldlM (other.addElement options) classes := by
  induction rows generalizing classes with
  | nil => rfl
  | cons head _ ih =>
    obtain ⟨answers, shape⟩ := head
    rw [List.foldlM_cons, List.foldlM_cons,
      addElement_alike shape (Element.typedLink_alike shape empty answers)]
    exact congrArg (_ >>= ·) (funext ih)

/-- Two content types that agree but for their ids and names and for the names and references of
their elements are compiled to the same, each in its own project: with the same classes and
diagnostics, or with the same error. The snippets that they refer to must agree in the same way, and
each reference must name a content type of the same codename as the one in its place. -/
theorem compileContentType_local (empty : project.contentTypes = [] ↔ other.contentTypes = [])
    (codename : type.codename = twin.codename)
    (shape : List.Forall₂ Element.SameShape type.elements twin.elements)
    (snippets : ∀ e ∈ type.elements, e.kind = .snippet → Option.Rel Snippet.SameShape
      (project.snippets.find? (·.codename == e.codename))
      (other.snippets.find? (·.codename == e.codename)))
    (answers : ∀ elements twins, type.concreteElements project.snippets = .ok elements →
      twin.concreteElements other.snippets = .ok twins →
      List.Forall₂ (fun e e' => List.Forall₂
        (Reference.SameAnswer project.contentTypes other.contentTypes)
        e.allowedTypes e'.allowedTypes) elements twins) :
    project.compileContentType options type = other.compileContentType options twin := by
  cases named : Identifier.ofText? type.codename with
  | none =>
    rw [compileContentType_of_unnamed named, codename,
      compileContentType_of_unnamed (codename ▸ named)]
  | some className =>
    rw [compileContentType_of_named named, codename,
      compileContentType_of_named (codename ▸ named)]
    have expanded := (ContentType.concreteElements_alike shape snippets).results
    have elements : Reporting.Alike _ (Reporting.ofExcept (type.concreteElements project.snippets))
      (Reporting.ofExcept (twin.concreteElements other.snippets)) := ⟨rfl, expanded⟩
    refine (elements.bind (S := Eq) fun es twins same => ?_).eq
    obtain ⟨left, right, shapes⟩ := same
    have rows := (answers es twins left right).mp (fun _ _ => And.intro) shapes
    rw [foldlM_addElement_alike empty rows]
    exact .refl _

/-- A column that links to its author by id and to other columns by codename. -/
def column : ContentType where
  id := "t1"
  codename := "column"
  name := "Column"
  elements := [
    { codename := "seo", kind := .snippet },
    { codename := "author", kind := .linkedItems, allowedTypes := [.id "t2"]
      limit? := some { condition := .exactly, value := 1 } },
    { codename := "related", kind := .subpages, allowedTypes := [.codename "column"] }]

/-- A paper with the column, its writer and its snippet. -/
def paper : Project where
  contentTypes := [column, { id := "t2", codename := "writer", name := "Writer" }]
  snippets := [{ codename := "seo", elements := [{ codename := "title", kind := .text }] }]

/-- The column under another id and name, with named elements and with each reference in the other
form. -/
def renamedColumn : ContentType where
  id := "c9"
  codename := "column"
  name := "Opinion"
  elements := [
    { codename := "seo", kind := .snippet, name? := some "Search" },
    { codename := "author", kind := .linkedItems, name? := some "By"
      allowedTypes := [.codename "writer"]
      limit? := some { condition := .exactly, value := 1 } },
    { codename := "related", kind := .subpages, allowedTypes := [.id "c9"] }]

/-- Another paper, with a writer who has elements of his own and stands in front of the column. -/
def otherPaper : Project where
  contentTypes := [
    { id := "w1", codename := "writer", name := "Staff"
      elements := [{ codename := "bio", kind := .richText }] },
    renamedColumn]
  snippets := [
    { id? := some "s1", codename := "seo", name? := some "Search"
      elements := [{ codename := "title", kind := .text, name? := some "Title" }] }]

/-- The column has the same classes in both papers, with a link to a writer and one to columns. -/
theorem column_moved :
    let options : Options := { typedLinks := true }
    ∃ c typed, (paper.compileContentType options column).result = .ok (some c) ∧
      c.typed? = some typed ∧
      typed.properties.map (fun p => (p.codename, p.typeName)) =
        [("writer", "Writer"), ("related_Column", "IEnumerable<Column>")] ∧
      (otherPaper.compileContentType options renamedColumn).result = .ok (some c) := by
  intro options
  have moved : paper.compileContentType options column =
      otherPaper.compileContentType options renamedColumn := by
    refine compileContentType_local (by decide) rfl ?_ ?_ ?_
    · exact .cons ⟨rfl, rfl, rfl, rfl, rfl⟩ (.cons ⟨rfl, rfl, rfl, rfl, rfl⟩
        (.cons ⟨rfl, rfl, rfl, rfl, rfl⟩ .nil))
    · intro e mem kind
      simp only [column, List.mem_cons, List.not_mem_nil, or_false] at mem
      obtain rfl | rfl | rfl := mem
      · exact .some (.cons ⟨rfl, rfl, rfl, rfl, rfl⟩ .nil)
      · cases kind
      · cases kind
    · intro elements twins left right
      cases left
      cases right
      exact .cons .nil (.cons (.cons (.found rfl rfl rfl) .nil)
        (.cons (.cons (.found rfl rfl rfl) .nil) .nil))
  have fine : ∃ c? ∈ (paper.compileContentType options column).result.toOption, ∃ c ∈ c?,
      ∃ typed ∈ c.typed?, typed.properties.map (fun p => (p.codename, p.typeName)) =
        [("writer", "Writer"), ("related_Column", "IEnumerable<Column>")] := by decide
  obtain ⟨c?, ran, c, given, typed, some, links⟩ := exists_eq_ok fine
  cases given
  exact ⟨c, typed, ran, some, links, moved ▸ ran⟩

end Project

end ContentClasses
