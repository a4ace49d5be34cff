import ContentClasses.Proofs.JsonRecords
import ContentClasses.Schema.Source

/-!
# Documents of a schema

A document holds a value or a list of values. A list gives what its items give as documents of their
own, as long as it can be held in memory and is not itself the array of the fields of a value;
`ofDocument_array_iff` says what it gives in any case, and `asApart_iff` when it does what its items
do apart.
-/

namespace ContentClasses

open Json (Failure Field Record)

namespace Json
variable {α : Type} {value item : Json} {items : List Json} {room more : Nat} {record : Record}
  {fields : List Field} {name : String} {read other : Json → Except Failure α}

/-- A value is held where its levels have room and nothing in it is beyond what a value can be. -/
lemma isHeld_iff : value.isHeld room ↔ value.depth ≤ room ∧ value.isPlain := by
  rw [isHeld, Bool.and_eq_true, decide_eq_true_iff]

lemma isHeld_mono (held : value.isHeld room) (le : room ≤ more) : value.isHeld more := by
  rw [isHeld_iff] at held ⊢
  exact ⟨Nat.le_trans held.1 le, held.2⟩

/-- The levels of a list of items are those of the deepest one. -/
lemma depthOfItems_le : depthOfItems items ≤ room ↔ ∀ item ∈ items, item.depth ≤ room := by
  induction items with
  | nil => simp [depthOfItems]
  | cons item items ih => rw [depthOfItems, Nat.max_le, ih, List.forall_mem_cons]

/-- A list of items is plain when all of them are. -/
lemma itemsArePlain_iff : itemsArePlain items ↔ ∀ item ∈ items, item.isPlain := by
  induction items with
  | nil => simp [itemsArePlain]
  | cons item items ih => rw [itemsArePlain, Bool.and_eq_true, ih, List.forall_mem_cons]

/-- An array is held with one level more than its items. -/
lemma isHeld_array :
    (array items).isHeld room ↔ 1 ≤ room ∧ ∀ item ∈ items, item.isHeld (room - 1) := by
  have level : depthOfItems items + 1 ≤ room ↔ 1 ≤ room ∧ depthOfItems items ≤ room - 1 := by omega
  simp only [isHeld_iff, depth, isPlain, level, depthOfItems_le, itemsArePlain_iff]
  constructor
  · rintro ⟨⟨enough, shallow⟩, plain⟩
    exact ⟨enough, fun item mem => ⟨shallow item mem, plain item mem⟩⟩
  · rintro ⟨enough, held⟩
    exact ⟨⟨enough, fun item mem => (held item mem).1⟩, fun item mem => (held item mem).2⟩

/-- What stands in an object that is held is held with one level less. -/
lemma isHeld_of_object {members : List (Text × Json)} (held : (object members).isHeld room) :
    ∀ member ∈ members, member.2.isHeld (room - 1) := by
  rw [isHeld_iff, depth, isPlain] at held
  have shallow : depthOfMembers members ≤ room - 1 := by omega
  have plain := held.2
  clear held
  induction members with
  | nil => nofun
  | cons member members ih =>
    obtain ⟨name, value⟩ := member
    rw [depthOfMembers, Nat.max_le] at shallow
    rw [membersArePlain, Bool.and_eq_true, Bool.and_eq_true] at plain
    rw [List.forall_mem_cons]
    exact ⟨isHeld_iff.mpr ⟨shallow.1, plain.1.2⟩, ih shallow.2 plain.2⟩

/-- The fields of an object are values of its members. -/
lemma mem_of_recordOfMembers {members : List (Text × Json)}
    (done : recordOfMembers fields members = .ok record) (mem : (name, item) ∈ record) :
    ∃ member ∈ members, member.2 = item := by
  induction members generalizing record with
  | nil =>
    cases done
    cases mem
  | cons member members ih =>
    obtain ⟨key?, value⟩ := member
    have later {rest : Record} (done : recordOfMembers fields members = .ok rest)
        (mem : (name, item) ∈ rest) : ∃ member ∈ (key?, value) :: members, member.2 = item := by
      obtain ⟨member, there, same⟩ := ih done mem
      exact ⟨member, List.mem_cons_of_mem _ there, same⟩
    cases key? with
    | none => cases done
    | some key =>
      obtain ⟨rest, rest_read, done⟩ := bind_eq_ok.mp done
      split at done
      case h_1 =>
        cases done
        exact later rest_read mem
      case h_2 =>
        split at done
        case isTrue => cases done
        case isFalse =>
          cases done
          obtain same | mem := List.mem_cons.mp mem
          · cases same
            exact ⟨_, List.mem_cons_self, rfl⟩
          · exact later rest_read mem

/-- The fields of an array are among its items. -/
lemma mem_of_recordOfItems (done : recordOfItems fields items = .ok record)
    (mem : (name, item) ∈ record) : item ∈ items := by
  induction items generalizing fields record with
  | nil =>
    cases fields <;>
    · cases done
      cases mem
  | cons first items ih =>
    cases fields with
    | nil => cases done
    | cons field fields =>
      obtain ⟨rest, rest_read, done⟩ := bind_eq_ok.mp done
      cases done
      obtain same | mem := List.mem_cons.mp mem
      · cases same
        exact List.mem_cons_self
      · exact List.mem_cons_of_mem _ (ih rest_read mem)

/-- The fields of a record that is held are held with one level less. -/
lemma isHeld_of_toRecord (held : value.isHeld room) (done : value.toRecord fields = .ok record)
    (mem : (name, item) ∈ record) : item.isHeld (room - 1) := by
  cases value with
  | object members =>
    obtain ⟨member, there, rfl⟩ := mem_of_recordOfMembers done mem
    exact isHeld_of_object held member there
  | array items => exact (isHeld_array.mp held).2 item (mem_of_recordOfItems done mem)
  | _ => cases done

/-- Two steps agree if the second ones do wherever the first one succeeds. -/
lemma bind_congr_ok {β : Type} {x : Except Failure α} {f g : α → Except Failure β}
    (same : ∀ a, x = .ok a → f a = g a) : x >>= f = x >>= g := by
  cases x with
  | error => rfl
  | ok a => exact same a rfl

/-- A list is read in the same way by readers that agree on its items. -/
lemma asList_congr (same : ∀ items, value = array items → ∀ item ∈ items, read item = other item) :
    asList read value = asList other value := by
  cases value with
  | array items =>
    have rows := same items rfl
    clear same
    rw [asList, asList]
    induction items with
    | nil => rfl
    | cons item items ih =>
      rw [List.forall_mem_cons] at rows
      rw [List.mapM_cons, List.mapM_cons, rows.1, ih rows.2]
  | _ => rfl

lemma mem_of_lookup (found : record.lookup name = some value) : (name, value) ∈ record := by
  obtain ⟨front, back, rfl, -⟩ := List.lookup_eq_some_iff.mp found
  exact List.mem_append_right front List.mem_cons_self

/-- A field with a default is read in the same way by readers that agree on its value. -/
lemma withDefault_congr {default : α}
    (same : ∀ value, (name, value) ∈ record → read value = other value) :
    record.withDefault name default read = record.withDefault name default other := by
  rw [Record.withDefault, Record.withDefault]
  cases found : record.lookup name with
  | none => rfl
  | some value => exact same value (mem_of_lookup found)

/-- A field with a list that is held is read in the same way wherever its items are. -/
lemma withDefault_asList_congr {default : List α} (held : value.isHeld room)
    (done : value.toRecord fields = .ok record)
    (same : ∀ item : Json, item.isHeld (room - 2) → read item = other item) :
    record.withDefault name default (asList read) =
      record.withDefault name default (asList other) := by
  refine withDefault_congr fun list mem => asList_congr fun items eq item there => same item ?_
  have list_held := isHeld_of_toRecord held done mem
  rw [eq] at list_held
  exact (isHeld_array.mp list_held).2 item there

end Json

open Json

/-- A reader of documents. A value that can be held is read in the same way with any room for it,
and one that is read is an object, or the array of its fields, the first of which is no document. -/
structure ReadsDocuments {α : Type} (read : Nat → Json → Except Failure α) : Prop where
  steady {room more : Nat} {value : Json} : value.isHeld room → room ≤ more →
    read more value = read room value
  shape {room : Nat} {value : Json} {a : α} : read room value = .ok a →
    (∃ members, value = .object members) ∨
      ∃ first rest, value = .array (first :: rest) ∧ (first = .null ∨ ∃ text, first = .string text)

section Readers
variable {room more : Nat} {value : Json}

/-- A reference that can be held is read in the same way with more room. -/
lemma Reference.ofJson_steady (held : value.isHeld room) (le : room ≤ more) :
    ofJson more value = ofJson room value := by
  unfold ofJson
  rw [if_pos held, if_pos (isHeld_mono held le)]

/-- An element that can be held is read in the same way with more room, as its references are. -/
lemma Element.ofJson_steady (held : value.isHeld room) (le : room ≤ more) :
    ofJson more value = ofJson room value := by
  refine bind_congr_ok fun record done => ?_
  have allowed : record.withDefault "allowed_content_types" []
        (asList (Reference.ofJson (more - 2))) =
      record.withDefault "allowed_content_types" [] (asList (Reference.ofJson (room - 2))) :=
    withDefault_asList_congr held done fun item own => Reference.ofJson_steady own (by omega)
  rw [allowed]

/-- The elements of a record that is held are read in the same way with any room. -/
lemma elements_steady {fields : List Field} {record : Record} (held : value.isHeld room)
    (le : room ≤ more) (done : value.toRecord fields = .ok record) :
    record.withDefault "elements" [] (asList (Element.ofJson (more - 2))) =
      record.withDefault "elements" [] (asList (Element.ofJson (room - 2))) :=
  withDefault_asList_congr held done fun _ own => Element.ofJson_steady own (by omega)

/-- A value with fields is an object or an array. -/
lemma Json.eq_of_toRecord {field : Field} {fields : List Field} {record : Record}
    (done : value.toRecord (field :: fields) = .ok record) :
    (∃ members, value = .object members) ∨ value = .array [] ∧ record = [] ∨
      ∃ first rest, value = .array (first :: rest) ∧ record.lookup field.name = some first := by
  cases value with
  | object members => exact .inl ⟨members, rfl⟩
  | array items =>
    cases items with
    | nil =>
      cases done
      exact .inr (.inl ⟨rfl, rfl⟩)
    | cons first rest =>
      obtain ⟨later, -, done⟩ := bind_eq_ok.mp done
      cases done
      refine .inr (.inr ⟨first, rest, rfl, ?_⟩)
      rw [List.lookup_cons, beq_self_eq_true]
  | _ => cases done

lemma Json.eq_of_asText {text : String} (done : asText value = .ok text) :
    ∃ text, value = .string text := by
  cases value with
  | string text => exact ⟨text, rfl⟩
  | _ => cases done

end Readers

/-- Content types are read from documents: the first field is a required text. -/
lemma ContentType.readsDocuments : ReadsDocuments ofJson where
  steady {room more value} held le := by
    refine bind_congr_ok fun record done => ?_
    rw [elements_steady held le done]
  shape {room value type} done := by
    obtain ⟨record, record_read, done⟩ := bind_eq_ok.mp done
    obtain ⟨id, id_read, -⟩ := bind_eq_ok.mp done
    obtain ⟨text, found, text_read⟩ := Record.required_eq_ok.mp id_read
    obtain object | ⟨-, rfl⟩ | ⟨first, rest, rfl, own⟩ := Json.eq_of_toRecord record_read
    · exact .inl object
    · cases found
    · cases own.symm.trans found
      exact .inr ⟨_, rest, rfl, .inr (Json.eq_of_asText text_read)⟩

/-- Snippets are read from documents: the first field is a text or missing, and the second is
required. -/
lemma Snippet.readsDocuments : ReadsDocuments ofJson where
  steady {room more value} held le := by
    refine bind_congr_ok fun record done => ?_
    rw [elements_steady held le done]
  shape {room value snippet} done := by
    obtain ⟨record, record_read, done⟩ := bind_eq_ok.mp done
    obtain ⟨id?, id_read, done⟩ := bind_eq_ok.mp done
    obtain ⟨codename, codename_read, -⟩ := bind_eq_ok.mp done
    obtain ⟨text, found, -⟩ := Record.required_eq_ok.mp codename_read
    obtain object | ⟨-, rfl⟩ | ⟨first, rest, rfl, own⟩ := Json.eq_of_toRecord record_read
    · exact .inl object
    · cases found
    · refine .inr ⟨first, rest, rfl, ?_⟩
      rw [Record.optional, own] at id_read
      split at id_read
      case h_1 absent => cases absent
      case h_2 null => exact .inl (Option.some.inj null)
      case h_3 value _ same =>
        cases Option.some.inj same
        obtain ⟨text, text_read, -⟩ := bind_eq_ok.mp id_read
        exact .inr (Json.eq_of_asText text_read)

namespace SchemaSource
variable {α : Type} {read : Nat → Json → Except Failure α} {document : Json} {items : List Json}
  {values : List α}

/-- The values that a document gives: the one it is read as, or those of a list that can be held,
each of them read from an item. -/
inductive Gives (read : Nat → Json → Except Failure α) : Json → List α → Prop where
  | single {document : Json} {value : α} (done : read maxDepth document = .ok value) :
    Gives read document [value]
  | list {items : List Json} {values : List α} (held : (array items).isHeld maxDepth)
    (rows : List.Forall₂ (fun item value => read maxDepth item = .ok value) items values) :
    Gives read (.array items) values

/-- The items of a list that is held are read as they are in documents of their own. -/
lemma asList_eq_ok (reads : ReadsDocuments read) (held : (array items).isHeld maxDepth) :
    asList (read (maxDepth - 1)) (array items) = .ok values ↔
      List.Forall₂ (fun item value => read maxDepth item = .ok value) items values := by
  have same : asList (read (maxDepth - 1)) (array items) = items.mapM (read maxDepth) :=
    asList_congr fun _ eq item mem => by
      cases eq
      exact (reads.steady ((isHeld_array.mp held).2 item mem) (Nat.sub_le _ _)).symm
  rw [same, mapM_eq_ok]

/-- What is null or a text gives nothing. -/
lemma not_gives_of_scalar (reads : ReadsDocuments read)
    (scalar : document = .null ∨ ∃ text, document = .string text) :
    ¬ Gives read document values := by
  intro gives
  cases gives with
  | single done => obtain ⟨_, rfl⟩ | ⟨_, _, rfl, -⟩ := reads.shape done <;> simp at scalar
  | list => simp at scalar

/-- No array is both the fields of a value and a list of values. -/
lemma not_single_of_rows (reads : ReadsDocuments read) {value : α}
    (rows : List.Forall₂ (fun item value => read maxDepth item = .ok value) items values) :
    read maxDepth (array items) ≠ .ok value := by
  intro done
  obtain ⟨_, eq⟩ | ⟨first, rest, eq, scalar⟩ := reads.shape done
  · cases eq
  · cases eq
    cases rows with
    | cons first_read => exact not_gives_of_scalar reads scalar (.single first_read)

/-- What is read from a document is what it gives. -/
theorem ofDocument_eq_ok (reads : ReadsDocuments read) :
    ofDocument read document = .ok values ↔ Gives read document values := by
  have one : (read maxDepth document).map ([·]) = .ok values ↔
      ∃ value, read maxDepth document = .ok value ∧ values = [value] := by
    cases read maxDepth document <;> simp [Except.map, eq_comm]
  rw [ofDocument]
  constructor
  · intro done
    split at done
    case isTrue held =>
      split at done
      case h_1 several list_read =>
        cases done
        cases document with
        | array items => exact .list held ((asList_eq_ok reads held).mp list_read)
        | _ => cases list_read
      case h_2 =>
        obtain ⟨value, value_read, rfl⟩ := one.mp done
        exact .single value_read
    case isFalse =>
      obtain ⟨value, value_read, rfl⟩ := one.mp done
      exact .single value_read
  · intro gives
    cases gives with
    | list held rows => rw [if_pos held, (asList_eq_ok reads held).mpr rows]
    | @single _ value done =>
      have single := one.mpr ⟨value, done, rfl⟩
      split
      case isFalse => exact single
      case isTrue held =>
        split
        case h_2 => exact single
        case h_1 several list_read =>
          cases document with
          | array items =>
            -- An array that is read both as a list and as one value would have a scalar first.
            exact absurd done (not_single_of_rows reads ((asList_eq_ok reads held).mp list_read))
          | _ => cases list_read

/-- The values that a row of documents gives. -/
def RowGives (read : Nat → Json → Except Failure α) (documents : List Json)
    (values : List α) : Prop :=
  ∃ rows, List.Forall₂ (Gives read) documents rows ∧ values = rows.flatten

/-- The items of a list can be taken apart: it is not the array of the fields of a value, and where
its items are documents, it can be held and none of them is a list again. -/
structure TakenApart (read : Nat → Json → Except Failure α) (items : List Json) : Prop where
  list (value : α) : read maxDepth (array items) ≠ .ok value
  held : (∃ values, RowGives read items values) →
    (array items).isHeld maxDepth ∧ ∀ item ∈ items, ∃ value, read maxDepth item = .ok value

/-- Items that are read as single values give these values one after the other. -/
lemma rowGives_of_rows
    (rows : List.Forall₂ (fun item value => read maxDepth item = .ok value) items values) :
    RowGives read items values := by
  refine ⟨values.map ([·]), ?_, ?_⟩
  · rw [List.forall₂_map_right_iff]
    exact rows.imp fun _ _ => .single
  · rw [← List.flatMap_def, List.flatMap_singleton']

/-- Documents that are single values give these values and no others. -/
lemma rows_of_rowGives (reads : ReadsDocuments read)
    (single : ∀ item ∈ items, ∃ value, read maxDepth item = .ok value)
    (gives : RowGives read items values) :
    List.Forall₂ (fun item value => read maxDepth item = .ok value) items values := by
  obtain ⟨rows, all, rfl⟩ := gives
  induction all with
  | nil => exact .nil
  | @cons item row items rows first _ ih =>
    rw [List.forall_mem_cons] at single
    obtain ⟨⟨value, own⟩, single⟩ := single
    have row_eq : row = [value] := by
      cases first with
      | single done =>
        cases own.symm.trans done
        rfl
      | list _ rows => exact absurd own (not_single_of_rows reads rows)
    rw [row_eq]
    exact .cons own (ih single)

/-- A list gives what its items give as documents of their own exactly when it can be taken
apart. -/
theorem gives_apart_iff (reads : ReadsDocuments read) :
    (∀ values, Gives read (.array items) values ↔ RowGives read items values) ↔
      TakenApart read items := by
  constructor
  · intro same
    -- As the fields of a value the array would start with a scalar, which gives nothing by itself.
    have list (value : α) : read maxDepth (array items) ≠ .ok value := by
      intro done
      obtain ⟨rows, all, -⟩ := (same [value]).mp (.single done)
      obtain ⟨_, eq⟩ | ⟨first, rest, eq, scalar⟩ := reads.shape done
      · cases eq
      · cases eq
        cases all with
        | cons first => exact not_gives_of_scalar reads scalar first
    refine ⟨list, fun ⟨values, gives⟩ => ?_⟩
    cases (same values).mpr gives with
    | single done => exact absurd done (list _)
    | list held rows => exact ⟨held, exists_of_forall₂ rows⟩
  · intro apart values
    constructor
    · intro gives
      cases gives with
      | single done => exact absurd done (apart.list _)
      | list _ rows => exact rowGives_of_rows rows
    · intro gives
      obtain ⟨held, single⟩ := apart.held ⟨values, gives⟩
      exact .list held (rows_of_rowGives reads single gives)

end SchemaSource

end ContentClasses
