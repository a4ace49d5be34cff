import ContentClasses.Compilation
import Mathlib.Data.List.Nodup
import Mathlib.Tactic.Lemma

/-!
# Adding to a class

What the operations that add to a class do, by whether the codename is free. A codename that is
taken is always reported and never an error, and the property `system` is replaced all the same.
-/

namespace ContentClasses

namespace ClassModel
variable {model : ClassModel} {p : Property} {className : String}

lemma property?_isNone {codename : String} :
    (model.property? codename).isNone ↔ codename ∉ model.properties.map (·.codename) := by
  simp [property?, List.find?_eq_none]

/-- A property with a free codename is added at the end. -/
lemma addProperty_of_free (free : p.codename ∉ model.properties.map (·.codename)) :
    model.addProperty p = .ok { model with properties := model.properties ++ [p] } := by
  rw [addProperty, if_pos (property?_isNone.mpr free)]

/-- A second property `system` takes the place of the first. -/
lemma addProperty_of_system (taken : p.codename ∈ model.properties.map (·.codename))
    (system : p.isSystem) :
    model.addProperty p = .ok { model with properties := replaceFirst p model.properties } := by
  rw [addProperty, if_neg (fun h => property?_isNone.mp h taken), if_pos system]

/-- Any other property of a codename that is taken is an error. -/
lemma addProperty_of_taken (taken : p.codename ∈ model.properties.map (·.codename))
    (other : ¬ p.isSystem) :
    model.addProperty p = .error (.duplicateProperty p.codename model.className.text) := by
  rw [addProperty, if_neg (fun h => property?_isNone.mp h taken), if_neg other]

/-- Where no codename occurs twice, to replace the first property of a codename is to replace
every one of it. -/
lemma replaceFirst_eq_map {ps : List Property} (nodup : (ps.map (·.codename)).Nodup) :
    replaceFirst p ps = ps.map fun q => if q.codename = p.codename then p else q := by
  induction ps with
  | nil => rfl
  | cons q ps ih =>
    obtain ⟨head, tail⟩ := List.nodup_cons.mp nodup
    rw [replaceFirst, List.map_cons]
    split
    case isTrue same =>
      have others : ∀ r ∈ ps, (if r.codename = p.codename then p else r) = r := by
        intro r hr
        rw [if_neg]
        intro e
        exact head (List.mem_map.mpr ⟨r, hr, e.trans same.symm⟩)
      rw [List.map_congr_left others, List.map_id']
    case isFalse => rw [ih tail]

/-- Behind a replacement the new property is found by its codename. -/
lemma find?_replaceFirst_self {ps : List Property} (taken : p.codename ∈ ps.map (·.codename)) :
    (replaceFirst p ps).find? (·.codename == p.codename) = some p := by
  induction ps with
  | nil => simp at taken
  | cons q ps ih =>
    rw [replaceFirst]
    -- The first property of the codename is replaced, and the first one is what is found.
    split
    case isTrue => simp
    case isFalse other =>
      have later : p.codename ∈ ps.map (·.codename) := by
        rw [List.map_cons, List.mem_cons] at taken
        exact taken.resolve_left fun eq => other eq.symm
      rw [List.find?_cons_of_neg (by simpa using other), ih later]

/-- A replacement does not change what is found by another codename. -/
lemma find?_replaceFirst_of_ne {ps : List Property} {codename : String}
    (other : codename ≠ p.codename) :
    (replaceFirst p ps).find? (·.codename == codename) = ps.find? (·.codename == codename) := by
  induction ps with
  | nil => rfl
  | cons q ps ih =>
    rw [replaceFirst]
    split
    case isTrue same =>
      rw [List.find?_cons_of_neg (by simpa using other.symm),
        List.find?_cons_of_neg (by simpa [same] using other.symm)]
    case isFalse => rw [List.find?_cons, List.find?_cons, ih]

/-- A replacement keeps the row of the codenames. -/
lemma replaceFirst_codename {ps : List Property} :
    (replaceFirst p ps).map (·.codename) = ps.map (·.codename) := by
  induction ps with
  | nil => rfl
  | cons q ps ih =>
    rw [replaceFirst]
    split
    case isTrue same => rw [List.map_cons, List.map_cons, same]
    case isFalse => rw [List.map_cons, List.map_cons, ih]

lemma mem_replaceFirst {q : Property} {ps : List Property} (mem : q ∈ replaceFirst p ps) :
    q = p ∨ q ∈ ps := by
  induction ps with
  | nil => cases mem
  | cons r ps ih =>
    rw [replaceFirst] at mem
    split at mem
    case isTrue =>
      obtain rfl | later := List.mem_cons.mp mem
      · exact .inl rfl
      · exact .inr (List.mem_cons_of_mem _ later)
    case isFalse =>
      obtain rfl | later := List.mem_cons.mp mem
      · exact .inr List.mem_cons_self
      · exact (ih later).imp_right (List.mem_cons_of_mem _)

/-- To replace a property by itself changes nothing. -/
lemma replaceFirst_of_find? {ps : List Property}
    (found : ps.find? (·.codename == p.codename) = some p) : replaceFirst p ps = ps := by
  induction ps with
  | nil => rfl
  | cons q ps ih =>
    rw [List.find?_cons] at found
    rw [replaceFirst]
    split
    case isTrue same =>
      simp only [same, beq_self_eq_true, Option.some.injEq] at found
      rw [found]
    case isFalse other =>
      have unequal : (q.codename == p.codename) = false := by simpa using other
      rw [unequal] at found
      rw [ih found]

lemma addConstant_of_free {codename : String} (free : codename ∉ model.constants) :
    model.addConstant codename = .ok { model with constants := model.constants ++ [codename] } := by
  rw [addConstant, if_neg free]

/-- A second constant for a codename is refused. -/
lemma addConstant_of_taken {codename : String} (taken : codename ∈ model.constants) :
    model.addConstant codename = .error (.duplicateConstant codename model.className.text) := by
  rw [addConstant, if_pos taken]

lemma offerConstant_of_free {codename : String} (free : codename ∉ model.constants) :
    model.offerConstant codename className =
      ⟨[], .ok ({ model with constants := model.constants ++ [codename] }, true)⟩ := by
  rw [offerConstant, addConstant_of_free free]
  rfl

/-- A constant that is offered again is reported as a duplicate, and the class stays as it is. -/
lemma offerConstant_of_taken {codename : String} (taken : codename ∈ model.constants) :
    model.offerConstant codename className =
      ⟨[.duplicateElement className codename], .ok (model, false)⟩ := by
  rw [offerConstant, addConstant_of_taken taken]
  rfl

/-- An element with a free codename gives its property and its constant, and nothing is reported. -/
lemma offer_of_free (free : p.codename ∉ model.properties.map (·.codename))
    (unnamed : p.codename ∉ model.constants) :
    model.offer p true className =
      ⟨[], .ok ({ model with properties := model.properties ++ [p]
                             constants := model.constants ++ [p.codename] }, true)⟩ := by
  rw [offer, addProperty_of_free free]
  exact offerConstant_of_free unnamed

/-- Where both are taken this is reported. The property `system` takes the place of the one there
even so. -/
lemma offer_of_taken (taken : p.codename ∈ model.properties.map (·.codename))
    (named : p.codename ∈ model.constants) :
    model.offer p true className =
      ⟨[.duplicateElement className p.codename],
        .ok ({ model with properties :=
                if p.isSystem then replaceFirst p model.properties else model.properties },
          false)⟩ := by
  by_cases system : p.isSystem
  · rw [offer, addProperty_of_system taken system, if_pos system]
    exact offerConstant_of_taken named
  · rw [offer, addProperty_of_taken taken system, if_neg system]
    rfl

/-- A property without a constant is added or reported, and never an error. -/
lemma offer_result (model : ClassModel) (p : Property) (className : String) :
    ∃ answer, (model.offer p false className).result = .ok answer := by
  by_cases taken : p.codename ∈ model.properties.map (·.codename)
  · by_cases system : p.isSystem
    · rw [offer, addProperty_of_system taken system]
      exact ⟨_, rfl⟩
    · rw [offer, addProperty_of_taken taken system]
      exact ⟨_, rfl⟩
  · rw [offer, addProperty_of_free taken]
    exact ⟨_, rfl⟩

/-- A property without a constant stands behind the others, or in the place of a `system` that is
there, or is left out. -/
lemma offer_cases {answer : ClassModel × Bool}
    (h : (model.offer p false className).result = .ok answer) :
    (p.codename ∉ model.properties.map (·.codename) ∧
        answer.1 = { model with properties := model.properties ++ [p] }) ∨
      answer.1 = { model with properties := replaceFirst p model.properties } ∨
      answer.1 = model := by
  by_cases taken : p.codename ∈ model.properties.map (·.codename)
  · by_cases system : p.isSystem
    · rw [offer, addProperty_of_system taken system] at h
      cases h
      exact .inr (.inl rfl)
    · rw [offer, addProperty_of_taken taken system] at h
      cases h
      exact .inr (.inr rfl)
  · rw [offer, addProperty_of_free taken] at h
    cases h
    exact .inl ⟨taken, rfl⟩

end ClassModel

end ContentClasses
