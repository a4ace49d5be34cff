import ContentClasses.ClassModel
import Mathlib.Data.List.Induction
import Mathlib.Data.List.Nodup
import Mathlib.Tactic.Lemma

/-!
# Properties by codename

What a class holds after properties are added to it one by one: the first one of each codename, in
order, but for the codename `system`, where the last one stands in the place of the first.
-/

namespace ContentClasses

namespace Property

/-- The properties that are the first of their codename. -/
def firstOfEach (ps : List Property) : List Property :=
  ps.eraseDupsBy (·.codename == ·.codename)

/-- What stands in the place of a property: the last one of the codename `system` if it has this
codename, and the property itself otherwise. -/
def latest (ps : List Property) (p : Property) : Property :=
  if p.isSystem then (ps.findRev? isSystem).getD p else p

/-- What a class holds of properties that are added one by one. -/
def settled (ps : List Property) : List Property :=
  (firstOfEach ps).map (latest ps)

/-- A property is the first of its codename, and none of this codename behind it is. -/
lemma firstOfEach_cons (p : Property) (ps : List Property) :
    firstOfEach (p :: ps) = p :: firstOfEach (ps.filter (·.codename ≠ p.codename)) := by
  rw [firstOfEach, List.eraseDupsBy_cons, firstOfEach]
  congr 3
  funext q
  simp

/-- A property at the end is the first of its codename if there is none of it in front. -/
lemma firstOfEach_append (ps : List Property) (p : Property) :
    firstOfEach (ps ++ [p]) =
      if p.codename ∈ ps.map codename then firstOfEach ps else firstOfEach ps ++ [p] := by
  -- The induction is on the length, since the tail of the list is filtered.
  induction length : ps.length using Nat.strongRecOn generalizing ps with
  | ind n ih =>
    cases ps with
    | nil => rfl
    | cons q qs =>
      rw [List.cons_append, firstOfEach_cons, firstOfEach_cons, List.filter_append]
      have shorter : (qs.filter (·.codename ≠ q.codename)).length < n := by
        have := List.length_filter_le (fun r : Property => decide (r.codename ≠ q.codename)) qs
        rw [List.length_cons] at length
        omega
      by_cases same : p.codename = q.codename
      · simp [same]
      · have kept : [p].filter (·.codename ≠ q.codename) = [p] := by simp [same]
        have mem : p.codename ∈ (qs.filter (·.codename ≠ q.codename)).map codename ↔
            p.codename ∈ (q :: qs).map codename := by
          simp only [List.mem_map, List.mem_filter, List.mem_cons, decide_eq_true_eq]
          constructor
          · rintro ⟨r, ⟨hr, -⟩, e⟩
            exact ⟨r, .inr hr, e⟩
          · rintro ⟨r, rfl | hr, e⟩
            · exact absurd e.symm same
            · exact ⟨r, ⟨hr, e ▸ same⟩, e⟩
        rw [kept, ih _ shorter _ rfl]
        simp only [mem]
        split <;> rfl

/-- The first properties of each codename have all codenames. -/
lemma mem_firstOfEach_codename {ps : List Property} {c : String} :
    c ∈ (firstOfEach ps).map codename ↔ c ∈ ps.map codename := by
  induction ps using List.reverseRecOn with
  | nil => rfl
  | append_singleton ps p ih =>
    rw [firstOfEach_append]
    split
    case isTrue taken =>
      rw [ih, List.map_append, List.mem_append]
      constructor
      · exact .inl
      · rintro (h | h)
        · exact h
        · rw [List.mem_singleton.mp h]
          exact taken
    case isFalse => simp [ih]

/-- The first properties of each codename have distinct codenames. -/
lemma nodup_firstOfEach (ps : List Property) : ((firstOfEach ps).map codename).Nodup := by
  induction ps using List.reverseRecOn with
  | nil => exact List.nodup_nil
  | append_singleton ps p ih =>
    rw [firstOfEach_append]
    split
    case isTrue => exact ih
    case isFalse free =>
      rw [List.map_append, List.nodup_append']
      refine ⟨ih, List.nodup_singleton _, ?_⟩
      intro c hc hp
      cases List.mem_singleton.mp hp
      exact free (mem_firstOfEach_codename.mp hc)

lemma latest_codename (ps : List Property) (p : Property) :
    (latest ps p).codename = p.codename := by
  unfold latest
  split
  case isFalse => rfl
  case isTrue system =>
    cases found : ps.findRev? isSystem with
    | none => rfl
    | some q =>
      have hq : q.isSystem := by
        rw [List.findRev?_eq_find?_reverse] at found
        exact List.find?_some found
      rw [Option.getD_some, eq_of_beq hq, eq_of_beq system]

/-- The settled properties have the codenames of the first ones, in their order. -/
lemma settled_codename (ps : List Property) :
    (settled ps).map codename = (firstOfEach ps).map codename := by
  rw [settled, List.map_map]
  exact List.map_congr_left fun p _ => latest_codename ps p

/-- A property at the end stands in the place of all of the codename `system` if it is one. -/
lemma latest_append (ps : List Property) (p q : Property) :
    latest (ps ++ [q]) p = if p.isSystem && q.isSystem then q else latest ps p := by
  unfold latest
  by_cases hp : p.isSystem <;> by_cases hq : q.isSystem <;> simp [hp, hq]

/-- A property with a new codename is settled at the end. -/
lemma settled_append_of_free {ps : List Property} {p : Property}
    (free : p.codename ∉ ps.map codename) : settled (ps ++ [p]) = settled ps ++ [p] := by
  have others : ∀ q ∈ firstOfEach ps, latest (ps ++ [p]) q = latest ps q := by
    intro q hq
    rw [latest_append]
    split
    case isFalse => rfl
    case isTrue both =>
      obtain ⟨hq', hp⟩ := Bool.and_eq_true_iff.mp both
      have mem : q.codename ∈ ps.map codename :=
        mem_firstOfEach_codename.mp (List.mem_map_of_mem hq)
      rw [eq_of_beq hq', ← eq_of_beq hp] at mem
      exact absurd mem free
  have itself : latest (ps ++ [p]) p = p := by
    rw [latest_append]
    unfold latest
    split <;> simp_all
  rw [settled, firstOfEach_append, if_neg free, List.map_append, List.map_congr_left others,
    List.map_singleton, itself, settled]

/-- A property of the codename `system` that is not the first takes the place of the one there. -/
lemma settled_append_of_system {ps : List Property} {p : Property}
    (taken : p.codename ∈ ps.map codename) (system : p.isSystem) :
    settled (ps ++ [p]) =
      (settled ps).map fun q => if q.codename = p.codename then p else q := by
  rw [settled, firstOfEach_append, if_pos taken, settled, List.map_map]
  refine List.map_congr_left fun q _ => ?_
  have hq : q.isSystem ↔ (latest ps q).codename = p.codename := by
    rw [latest_codename, eq_of_beq system, isSystem, beq_iff_eq]
  rw [latest_append, Function.comp_apply, system, Bool.and_true]
  simp only [hq]

/-- Any other property that is not the first of its codename is dropped. -/
lemma settled_append_of_taken {ps : List Property} {p : Property}
    (taken : p.codename ∈ ps.map codename) (other : ¬ p.isSystem) :
    settled (ps ++ [p]) = settled ps := by
  rw [settled, firstOfEach_append, if_pos taken, settled]
  refine List.map_congr_left fun q _ => ?_
  rw [latest_append]
  simp [other]

end Property

end ContentClasses
