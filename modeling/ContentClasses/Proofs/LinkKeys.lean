import ContentClasses.Proofs.LinkAnswers

/-!
# Keys of typed links

A typed link is kept under a codename of its own: that of the content type for a link to one item,
and for a link to several items one that is made of the codename of the element and the class name.
`Element.keys_clash_iff` says when two elements get one codename. A codename that is made ends in a
class name, in which there is no underscore, so that it can be taken apart at its last one, however
many there are in front. That its last part starts with a capital tells it from a codename without
one.
-/

namespace ContentClasses

namespace Element
variable {e f : Element} {types : List ContentType} {options options' : Options}
  {p q : Property} {target other : ContentType} {className otherName : Identifier}

/-- The typed link of an element is to one item of a content type. -/
structure LinksToOne (e : Element) (types : List ContentType) (options : Options)
    (target : ContentType) : Prop extends e.LinksOnly types options target where
  limit : e.HoldsOne

/-- The typed link of an element is to several items of a content type with a class name. -/
structure LinksToSeveral (e : Element) (types : List ContentType) (options : Options)
    (target : ContentType) (className : Identifier) : Prop
    extends e.LinksOnly types options target where
  limit : ¬ e.HoldsOne
  named : Identifier.ofText? target.codename = some className

section Keys

/-- The key of a collection has an underscore between the codename of the element and the name of
the class. -/
lemma toList_collectionCodename :
    (e.collectionCodename className).toList =
      e.codename.toList ++ '_' :: className.text.toList := by
  rw [collectionCodename, String.toList_append, String.toList_append, List.append_assoc]
  rfl

/-- A codename that is made can be taken apart. -/
lemma collectionCodename_inj (pascal : className.IsPascal) (otherPascal : otherName.IsPascal) :
    e.collectionCodename className = f.collectionCodename otherName ↔
      e.codename = f.codename ∧ className = otherName := by
  rw [← String.toList_inj, toList_collectionCodename, toList_collectionCodename,
    append_last_inj (pascal.notMem (by decide)) (otherPascal.notMem (by decide)),
    String.toList_inj, String.toList_inj, Identifier.text_injective.eq_iff]

/-- The key of a collection is longer than the codename of the element. -/
lemma collectionCodename_ne_codename : e.collectionCodename className ≠ e.codename := by
  intro same
  have length := congrArg (fun s : String => s.toList.length) same
  simp only [toList_collectionCodename, List.length_append, List.length_cons] at length
  omega

/-- There is a capital in a codename that is made: the first letter of the class name. -/
lemma exists_isUpper_collectionCodename (pascal : className.IsPascal) :
    ∃ c ∈ (e.collectionCodename className).toList, c.isUpper := by
  obtain ⟨c, cs, text, capital, -⟩ := pascal
  refine ⟨c, ?_, capital⟩
  rw [toList_collectionCodename, text]
  simp

end Keys

/-- An element that links to one content type only links to no other one. -/
lemma LinksOnly.eq (one : e.LinksOnly types options target)
    (again : e.LinksOnly types options other) : target = other := by
  obtain ⟨-, r, alone, stands⟩ := one
  obtain ⟨-, r', alone', stands'⟩ := again
  rw [alone, List.singleton_inj] at alone'
  subst alone'
  exact Option.some.inj ((standsFor_iff.mp stands).symm.trans (standsFor_iff.mp stands'))

lemma LinksOnly.mem (one : e.LinksOnly types options target) : target ∈ types := by
  obtain ⟨-, r, -, front, back, rfl, -, -⟩ := one
  exact List.mem_append_right front List.mem_cons_self

/-- A typed link that is there is to one item or to several, and is kept under the codename for
that. -/
lemma key_of_typedLink (given : e.typedLink types options = .ok (some p)) :
    (∃ target, e.LinksToOne types options target ∧ p.codename = target.codename) ∨
      ∃ target className, e.LinksToSeveral types options target className ∧
        p.codename = e.collectionCodename className := by
  obtain ⟨answer, row⟩ := e.exists_linkAnswer types options
  cases row.eq.symm.trans given
  cases row with
  | single one _ limit => exact .inl ⟨_, ⟨one, limit⟩, rfl⟩
  | collection one named limit => exact .inr ⟨_, _, ⟨one, limit, named⟩, rfl⟩

/-- A single link goes by the codename of its content type. -/
lemma LinksToOne.key (one : e.LinksToOne types options target)
    (given : e.typedLink types options = .ok (some p)) : p.codename = target.codename := by
  obtain ⟨own, links, key⟩ | ⟨own, className, links, -⟩ := key_of_typedLink given
  · rw [key, links.toLinksOnly.eq one.toLinksOnly]
  · exact absurd one.limit links.limit

/-- A collection goes by the codename of its element and the name of its class. -/
lemma LinksToSeveral.key (several : e.LinksToSeveral types options target className)
    (given : e.typedLink types options = .ok (some p)) :
    p.codename = e.collectionCodename className := by
  obtain ⟨own, links, -⟩ | ⟨own, ownName, links, key⟩ := key_of_typedLink given
  · exact absurd links.limit several.limit
  · have named := several.named
    rw [← links.toLinksOnly.eq several.toLinksOnly, links.named, Option.some.injEq] at named
    rw [key, named]

lemma LinksToSeveral.isPascal (several : e.LinksToSeveral types options target className) :
    className.IsPascal :=
  Identifier.isPascal_of_ofText? several.named

/-- Links to several items of two elements are kept apart. -/
lemma LinksToSeveral.codename_ne (several : e.LinksToSeveral types options target className)
    (others : f.LinksToSeveral types options' other otherName)
    (different : e.codename ≠ f.codename) :
    e.collectionCodename className ≠ f.collectionCodename otherName :=
  fun same => different ((collectionCodename_inj several.isPascal others.isPascal).mp same).1

/-- Without a capital in the codename of any content type, none is like a codename that is made. -/
lemma LinksToOne.codename_ne (one : e.LinksToOne types options target)
    (several : f.LinksToSeveral types options' other otherName)
    (small : ∀ type ∈ types, ∀ c ∈ type.codename.toList, ¬ c.isUpper) :
    target.codename ≠ f.collectionCodename otherName := by
  intro same
  obtain ⟨c, mem, capital⟩ := exists_isUpper_collectionCodename (e := f) several.isPascal
  rw [← same] at mem
  exact small target one.toLinksOnly.mem c mem capital

section Clashes
variable (first : e.typedLink types options = .ok (some p))
  (second : f.typedLink types options' = .ok (some q))
include first

/-- The key of a collection is never the codename of its own element. -/
lemma key_ne_codename (several : ¬ e.HoldsOne) : p.codename ≠ e.codename := by
  obtain ⟨target, one, -⟩ | ⟨target, className, -, key⟩ := key_of_typedLink first
  · exact absurd one.limit several
  · rw [key]
    exact collectionCodename_ne_codename

include second

/-- Collections of different elements have different keys: the keys are cut at their last
underscores. -/
lemma keys_ne_of_several (different : e.codename ≠ f.codename) (several : ¬ e.HoldsOne)
    (others : ¬ f.HoldsOne) : p.codename ≠ q.codename := by
  obtain ⟨target, one, -⟩ | ⟨target, className, links, key⟩ := key_of_typedLink first
  · exact absurd one.limit several
  obtain ⟨other, one, -⟩ | ⟨other, otherName, links', key'⟩ := key_of_typedLink second
  · exact absurd one.limit others
  rw [key, key']
  exact links.codename_ne links' different

/-- Where no codename of a content type has a capital, a single link and a collection have different
keys. -/
lemma keys_ne_of_small (small : ∀ type ∈ types, ∀ c ∈ type.codename.toList, ¬ c.isUpper)
    (one : e.HoldsOne) (several : ¬ f.HoldsOne) : p.codename ≠ q.codename := by
  obtain ⟨target, links, key⟩ | ⟨target, className, links, -⟩ := key_of_typedLink first
  case inr => exact absurd one links.limit
  obtain ⟨other, links', -⟩ | ⟨other, otherName, links', key'⟩ := key_of_typedLink second
  · exact absurd links'.limit several
  rw [key, key']
  exact links.codename_ne links' small

/-- Two links of different elements have one key in three cases and in no other. -/
lemma keys_eq_iff (different : e.codename ≠ f.codename) :
    p.codename = q.codename ↔
      (∃ target other, e.LinksToOne types options target ∧ f.LinksToOne types options' other ∧
        target.codename = other.codename) ∨
      (∃ target other className, e.LinksToOne types options target ∧
        f.LinksToSeveral types options' other className ∧
        target.codename = f.codename ++ "_" ++ className.text) ∨
      ∃ target other className, f.LinksToOne types options' target ∧
        e.LinksToSeveral types options other className ∧
        target.codename = e.codename ++ "_" ++ className.text := by
  constructor
  · intro same
    obtain ⟨s, one, key⟩ | ⟨s, className, several, key⟩ := key_of_typedLink first <;>
      obtain ⟨t, one', key'⟩ | ⟨t, otherName, several', key'⟩ := key_of_typedLink second <;>
      rw [key, key'] at same
    · exact .inl ⟨s, t, one, one', same⟩
    · exact .inr (.inl ⟨s, t, otherName, one, several', same⟩)
    · exact .inr (.inr ⟨t, s, className, one', several, same.symm⟩)
    · exact absurd same (several.codename_ne several' different)
  · rintro (⟨s, t, one, one', same⟩ | ⟨s, t, className, one, several, same⟩ |
      ⟨s, t, className, one, several, same⟩)
    · rw [one.key first, one'.key second, same]
    · rw [one.key first, several.key second, same, collectionCodename]
    · rw [one.key second, several.key first, same, collectionCodename]

end Clashes

/-- The typed links of two elements are kept under one codename in just three cases: both are to
one item, of content types with one codename, or one of them is to one item of a content type whose
codename is the one that is made for the other, which is to several items. So links to several items
never clash, and none has the codename of its own element. A link to one item and one to several
never clash where no codename of a content type has a capital. -/
theorem keys_clash_iff (different : e.codename ≠ f.codename)
    (first : e.typedLink types options = .ok (some p))
    (second : f.typedLink types options' = .ok (some q)) :
    (p.codename = q.codename ↔
      (∃ target other, e.LinksToOne types options target ∧ f.LinksToOne types options' other ∧
        target.codename = other.codename) ∨
      (∃ target other className, e.LinksToOne types options target ∧
        f.LinksToSeveral types options' other className ∧
        target.codename = f.codename ++ "_" ++ className.text) ∨
      ∃ target other className, f.LinksToOne types options' target ∧
        e.LinksToSeveral types options other className ∧
        target.codename = e.codename ++ "_" ++ className.text) ∧
    (¬ e.HoldsOne → ¬ f.HoldsOne → p.codename ≠ q.codename) ∧
    (¬ e.HoldsOne → p.codename ≠ e.codename) ∧
    (¬ f.HoldsOne → q.codename ≠ f.codename) ∧
    ((∀ type ∈ types, ∀ c ∈ type.codename.toList, ¬ c.isUpper) →
      (e.HoldsOne ↔ ¬ f.HoldsOne) → p.codename ≠ q.codename) := by
  refine ⟨keys_eq_iff first second different, keys_ne_of_several first second different,
    key_ne_codename first, key_ne_codename second, fun small mixed => ?_⟩
  by_cases one : e.HoldsOne
  · exact keys_ne_of_small first second small one (mixed.mp one)
  · have other : f.HoldsOne := not_not.mp (mt mixed.mpr one)
    exact (keys_ne_of_small second first small other one).symm

/-- A link to the only item of a content type with underscores and a capital in its codename, and a
link to several items for which this codename is made. -/
theorem press_keys_clash :
    let types : List ContentType :=
      [{ id := "t1", codename := "press", name := "Press" },
        { id := "t2", codename := "our_media_Press", name := "Media" }]
    let options : Options := { typedLinks := true }
    let cover : Element :=
      { codename := "cover", kind := .linkedItems, allowedTypes := [.id "t2"]
        limit? := some ⟨.atMost, 1⟩ }
    let media : Element :=
      { codename := "our_media", kind := .subpages, allowedTypes := [.codename "press"] }
    ∃ p q, cover.typedLink types options = .ok (some p) ∧
      media.typedLink types options = .ok (some q) ∧ cover.codename ≠ media.codename ∧
      p.codename = q.codename ∧ p.typeName = "OurMediaPress" ∧
      q.typeName = "IEnumerable<Press>" ∧ q.codename ≠ media.codename := by
  intro types options cover media
  let p : Property :=
    { codename := "our_media_Press", identifier := ⟨"OurMediaPress"⟩, typeName := "OurMediaPress" }
  let q : Property :=
    { codename := "our_media_Press", identifier := ⟨"OurMediaPress"⟩
      typeName := "IEnumerable<Press>" }
  have first : cover.typedLink types options = .ok (some p) := by decide
  have second : media.typedLink types options = .ok (some q) := by decide
  have one : cover.LinksToOne types options types[1] :=
    ⟨⟨⟨.inl rfl, by decide, rfl⟩, .id "t2", rfl, standsFor_iff.mpr (by decide)⟩, .inl rfl⟩
  have unlimited : ¬ media.HoldsOne := by
    rintro (none | none) <;> cases none
  have several : media.LinksToSeveral types options types[0] ⟨"Press"⟩ :=
    ⟨⟨⟨.inr rfl, by decide, rfl⟩, .codename "press", rfl, standsFor_iff.mpr (by decide)⟩,
      unlimited, by decide⟩
  have different : cover.codename ≠ media.codename := by decide
  obtain ⟨clash, -, -, own, -⟩ := keys_clash_iff different first second
  refine ⟨p, q, first, second, different, ?_, rfl, rfl, own unlimited⟩
  exact clash.mpr (.inr (.inl ⟨_, _, _, one, several, by decide⟩))

end Element

end ContentClasses
