import ContentClasses.Json.Record
import ContentClasses.Proofs.Rows

/-!
# Records that are written and read

A record is written as the object of the fields that have a value, in their order. Reading that
object gives the fields back one by one, as `required_given`, `optional_given` and
`withDefault_given` say; what is read from any other value has at least been read by the readers of
the fields.
-/

namespace ContentClasses.Json

variable {α : Type} {fields : List Field} {row : List (String × Option Json)} {record : Record}
  {name : String} {value : Json} {read : Json → Except Failure α} {write : α → Json} {a : α}

/-- The members of a row of fields, some of which have a value. -/
def given (row : List (String × Option Json)) : Record :=
  row.filterMap fun (name, value?) => value?.map (name, ·)

lemma given_cons_none : given ((name, none) :: row) = given row :=
  rfl

lemma given_cons_some : given ((name, some value) :: row) = (name, value) :: given row :=
  rfl

lemma given_append {more : List (String × Option Json)} :
    given (row ++ more) = given row ++ given more :=
  List.filterMap_append

/-- A member that is only written if it is set is a row of one field. -/
lemma memberIfSet_eq {value? : Option α} :
    memberIfSet name write value? = given [(name, value?.map write)] := by
  cases value? <;> rfl

/-- The fields that have a value come in the order of all. -/
lemma given_sublist : ((given row).map Prod.fst).Sublist (row.map Prod.fst) := by
  induction row with
  | nil => exact .slnil
  | cons field row ih =>
    obtain ⟨name, _ | value⟩ := field
    · rw [given_cons_none]
      exact ih.cons name
    · rw [given_cons_some]
      exact ih.cons_cons name

/-- Of fields without repetitions the one that is looked up has the value it is written with. -/
lemma lookup_given (nodup : (row.map Prod.fst).Nodup) :
    (given row).lookup name = (row.lookup name).join := by
  induction row with
  | nil => rfl
  | cons field row ih =>
    obtain ⟨first, value?⟩ := field
    rw [List.map_cons, List.nodup_cons] at nodup
    rw [List.lookup_cons]
    by_cases same : name = first
    · subst same
      rw [beq_self_eq_true]
      cases value? with
      | some value => rw [given_cons_some, List.lookup_cons, beq_self_eq_true]; rfl
      | none =>
        rw [given_cons_none, List.lookup_eq_none_iff.mpr]
        · rfl
        · intro other mem
          -- A field that is left out is not written further behind either.
          refine bne_iff_ne.mpr fun again : name = other.1 => nodup.1 ?_
          rw [again]
          exact given_sublist.subset (List.mem_map_of_mem mem)
    · rw [beq_eq_false_iff_ne.mpr same]
      cases value? with
      | some value =>
        rw [given_cons_some, List.lookup_cons, beq_eq_false_iff_ne.mpr same]
        exact ih nodup.2
      | none =>
        rw [given_cons_none]
        exact ih nodup.2

/-- A record whose members have fields, each with its own name, is read as it was written. -/
lemma recordOfMembers_eq (own : ∀ name ∈ record.map Prod.fst, fieldName? fields name = some name)
    (nodup : (record.map Prod.fst).Nodup) :
    recordOfMembers fields (record.map fun (name, value) => (some name, value)) = .ok record := by
  induction record with
  | nil => rfl
  | cons field record ih =>
    obtain ⟨name, value⟩ := field
    rw [List.map_cons, List.nodup_cons] at nodup
    rw [List.map_cons, List.forall_mem_cons] at own
    have free : record.any (·.1 == name) = false := by
      rw [List.any_eq_false]
      intro other mem same
      rw [← eq_of_beq same] at nodup
      exact nodup.1 (List.mem_map.mpr ⟨other, mem, rfl⟩)
    rw [List.map_cons, recordOfMembers, ih own.2 nodup.2]
    simp only [bind, Except.bind, own.1, free]
    rfl

/-- The fields of a record are written under their own names, which are all different. -/
structure Apart (fields : List Field) : Prop where
  own : ∀ field ∈ fields, fieldName? fields field.name = some field.name
  nodup : (fields.map (·.name)).Nodup

/-- What is written for a row of fields is read as the record of those that have a value. -/
lemma toRecord_given (apart : Apart fields) (names : row.map Prod.fst = fields.map (·.name)) :
    (Json.ofMembers (given row)).toRecord fields = .ok (given row) := by
  refine recordOfMembers_eq (fun name mem => ?_) ?_
  · have there := given_sublist.subset mem
    rw [names] at there
    obtain ⟨field, own, rfl⟩ := List.mem_map.mp there
    exact apart.own field own
  · refine List.Nodup.sublist given_sublist ?_
    rw [names]
    exact apart.nodup

namespace Record

/-- A required field is read from the value under its name. -/
lemma required_eq_ok :
    record.required name read = .ok a ↔
      ∃ value, record.lookup name = some value ∧ read value = .ok a := by
  rw [required]
  cases record.lookup name <;> simp

/-- A field with a default has it where the name is missing, and is read otherwise. -/
lemma withDefault_eq_ok {default : α} :
    record.withDefault name default read = .ok a ↔
      record.lookup name = none ∧ a = default ∨
        ∃ value, record.lookup name = some value ∧ read value = .ok a := by
  rw [withDefault]
  cases record.lookup name <;> simp [eq_comm]

section Given
variable (nodup : (row.map Prod.fst).Nodup)
include nodup

/-- A required field is read from what was written for it. -/
lemma required_given (there : row.lookup name = some (some value)) (done : read value = .ok a) :
    (given row).required name read = .ok a := by
  rw [required, lookup_given nodup, there]
  exact done

/-- An optional field that is written where it is set is read as it was. -/
lemma optional_given {a? : Option α} (there : row.lookup name = some (a?.map write))
    (back : ∀ a, read (write a) = .ok a) (set : ∀ a, write a ≠ .null) :
    (given row).optional name read = .ok a? := by
  rw [optional, lookup_given nodup, there, Option.join_some]
  cases a? with
  | none => rfl
  | some a =>
    rw [Option.map_some]
    split
    case h_1 absent => cases absent
    case h_2 null => exact absurd (Option.some.inj null) (set a)
    case h_3 value _ same =>
      rw [← Option.some.inj same, back a]
      rfl

/-- A field with a default is read from what was written for it. -/
lemma withDefault_given {default : α} (there : row.lookup name = some (some value))
    (done : read value = .ok a) : (given row).withDefault name default read = .ok a := by
  rw [withDefault, lookup_given nodup, there]
  exact done

/-- A field with a default has it where nothing was written. -/
lemma withDefault_absent {default : α} (there : row.lookup name = some none) :
    (given row).withDefault name default read = .ok default := by
  rw [withDefault, lookup_given nodup, there]
  rfl

end Given

end Record

/-- A list whose items are read as they were written is read as it was. -/
lemma asList_map {as : List α} (back : ∀ a ∈ as, read (write a) = .ok a) :
    asList read (.array (as.map write)) = .ok as := by
  rw [asList, mapM_eq_ok, List.forall₂_map_left_iff]
  exact List.forall₂_same.mpr back

/-- The items of a list that is read have been read. -/
lemma of_mem_asList {as : List α} (done : asList read value = .ok as) (mem : a ∈ as) :
    ∃ item, read item = .ok a := by
  cases value with
  | array items =>
    have rows := mapM_eq_ok.mp done
    clear done
    induction rows with
    | nil => cases mem
    | cons first _ ih =>
      obtain rfl | later := List.mem_cons.mp mem
      · exact ⟨_, first⟩
      · exact ih later
  | _ => cases done

lemma asText_ofString (s : String) : asText (.ofString s) = .ok s :=
  rfl

end ContentClasses.Json
