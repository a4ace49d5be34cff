import ContentClasses.Proofs.SettingLayers
import Mathlib.Data.List.Induction

/-!
# The layer that counts

Which of the layers that set a field decides about it: `Settings.map_after_flatten`. It is the
highest one that sets the field to something other than an empty table, for an empty table that is
laid over a value changes nothing. A table with entries may be merged with others, but no field
takes a table, so that it makes no difference what is in it. It is the same with single items where
a field takes no list.
-/

namespace ContentClasses

namespace Setting
variable {α : Type} {convert? : Setting → Option α} {old new : Setting} {name : String}
  {entries : List (String × Setting)}

/-- A table without entries. -/
def isEmptyTable : Setting → Bool
  | table [] => true
  | _ => false

/-- A conversion has no value for nothing and for tables. -/
structure Refuses (convert? : Setting → Option α) : Prop where
  null : convert? .null = none
  table (entries : List (String × Setting)) : convert? (.table entries) = none

lemma eq_of_isEmptyTable (empty : old.isEmptyTable) : old = .table [] := by
  unfold isEmptyTable at empty
  split at empty
  · rfl
  · cases empty

lemma isEmptyTable_table (full : entries ≠ []) : (table entries).isEmptyTable = false := by
  cases entries with
  | nil => exact absurd rfl full
  | cons => rfl

lemma assign_ne_nil : Files.assign name new entries ≠ [] := by
  cases entries with
  | nil => exact List.cons_ne_nil _ _
  | cons entry entries =>
    rw [Files.assign]
    split <;> exact List.cons_ne_nil _ _

/-- Nothing is removed from a table by what is laid over it. -/
lemma overlayEntries_ne_nil (full : entries ≠ []) (more : List (String × Setting)) :
    overlayEntries entries more ≠ [] := by
  induction more generalizing entries with
  | nil => rwa [overlayEntries]
  | cons entry more ih =>
    rw [overlayEntries]
    exact ih assign_ne_nil

lemma overlayEntries_cons_ne_nil {entry : String × Setting} {old new : List (String × Setting)} :
    overlayEntries old (entry :: new) ≠ [] := by
  rw [overlayEntries]
  exact overlayEntries_ne_nil assign_ne_nil new

/-- What is laid over a value replaces it, changes nothing, or gives a table with entries. -/
lemma overlay_cases (new : Setting) :
    (¬ new.isEmptyTable ∧ ∀ old, overlay old new = new) ∨ new = .table [] ∨
      ∀ old, ∃ entries ≠ [], overlay old new = .table entries := by
  by_cases plain : ∀ entries, new ≠ table entries
  · exact .inl ⟨fun empty => plain [] (eq_of_isEmptyTable empty),
      fun old => overlay_of_not_table plain⟩
  · push Not at plain
    obtain ⟨entries, rfl⟩ := plain
    cases entries with
    | nil => exact .inr (.inl rfl)
    | cons entry entries => exact .inr (.inr fun old => ⟨_, overlayEntries_cons_ne_nil, rfl⟩)

/-- An empty table over a value does not change what the value is converted to. -/
lemma Refuses.convert?_overlay (refuses : Refuses convert?) (old : Setting) :
    convert? (old.overlay (.table [])) = convert? old := by
  cases old with
  | null => exact (refuses.table []).trans refuses.null.symm
  | _ => rfl

/-- A key leads to a single item of a field, or into one. -/
def isOfItem (key : String) : Bool :=
  match stepsOfKey key with
  | .name _ :: .index _ :: _ => true
  | _ => false

/-- A key with an index behind its first name is that of an item. -/
lemma isOfItem_of_index {key first : String} {i : Int} {steps : List Step}
    (split : stepsOfKey key = .name first :: .index i :: steps) : isOfItem key := by
  rw [isOfItem, split]

/-- What a setting of an item makes of a value is a list. -/
lemma exists_list_overlayAt (i : Int) (steps : List Step) (old : Setting) :
    ∃ items, old.overlayAt new (.index i :: steps) = .list items := by
  cases steps <;> exact ⟨_, rfl⟩

/-- A setting of a field or of something in it gives the field a value of its own, lays an empty
table over its value, or makes it something that has no value in a conversion, which may take lists
only where the setting is not of an item. -/
lemma after_cases {setting : String × Setting} (refuses : Refuses convert?)
    (own : fieldOfKey setting.1 = some name)
    (whole : (∀ items, convert? (.list items) = none) ∨ isOfItem setting.1 = false) :
    (∃ new, ¬ new.isEmptyTable ∧ ∀ value?, after name value? setting = some new) ∨
      (∀ value?, after name value? setting = some ((value?.getD .null).overlay (.table []))) ∨
      ∀ value?, ∃ new, ¬ new.isEmptyTable ∧ convert? new = none ∧
        after name value? setting = some new := by
  obtain ⟨key, new⟩ := setting
  obtain ⟨first, steps, split⟩ := exists_stepsOfKey key
  have given (value? : Option Setting) : after name value? (key, new) =
      some ((value?.getD .null).overlayAt new steps) := by
    rw [after, if_pos own, split, List.tail_cons]
  have refused {entries : List (String × Setting)} (full : entries ≠ []) :
      ¬ (table entries).isEmptyTable ∧ convert? (.table entries) = none :=
    ⟨by rw [isEmptyTable_table full]; exact Bool.false_ne_true, refuses.table entries⟩
  simp only [given]
  cases steps with
  | nil =>
    simp only [overlayAt]
    obtain ⟨full, replaces⟩ | rfl | nests := overlay_cases new
    · exact .inl ⟨new, full, fun value? => congrArg some (replaces _)⟩
    · exact .inr (.inl fun value? => rfl)
    · refine .inr (.inr fun value? => ?_)
      obtain ⟨entries, full, made⟩ := nests (value?.getD .null)
      exact ⟨_, (refused full).1, (refused full).2, congrArg some made⟩
  | cons step steps =>
    cases step with
    | name inner =>
      refine .inr (.inr fun value? => ?_)
      rw [overlayAt]
      exact ⟨_, (refused assign_ne_nil).1, (refused assign_ne_nil).2, rfl⟩
    | index i =>
      obtain lists | whole := whole
      · refine .inr (.inr fun value? => ?_)
        obtain ⟨items, made⟩ := exists_list_overlayAt i steps (value?.getD .null)
        exact ⟨.list items, Bool.false_ne_true, lists items, congrArg some made⟩
      · cases (isOfItem_of_index split).symm.trans whole

end Setting

namespace Settings
variable {name : String} {layer : Settings} {layers : List Settings} {value? : Option Setting}
  {value : Setting}

/-- The value that a layer gives a field when it is alone. -/
def valueOf? (layer : Settings) (name : String) : Option Setting :=
  layer.after name none

/-- The settings of a field, or of something in it. -/
def ofField (name : String) (layer : Settings) : Settings :=
  layer.filter fun setting => Setting.fieldOfKey setting.1 = some name

/-- A layer sets a field at most once. -/
def SetsOnce (layer : Settings) (name : String) : Prop :=
  (layer.ofField name).length ≤ 1

/-- A layer sets no single items of a field. -/
def SetsWhole (layer : Settings) (name : String) : Prop :=
  ∀ setting ∈ layer.ofField name, Setting.isOfItem setting.1 = false

instance : Decidable (layer.SetsOnce name) :=
  inferInstanceAs (Decidable (_ ≤ _))

instance : Decidable (layer.SetsWhole name) :=
  inferInstanceAs (Decidable (∀ setting ∈ layer.ofField name, _))

lemma after_ofField : layer.after name value? = (layer.ofField name).after name value? := by
  induction layer generalizing value? with
  | nil => rfl
  | cons setting layer ih =>
    obtain ⟨key, new⟩ := setting
    rw [ofField, List.filter_cons, after_cons]
    split
    case isTrue =>
      rw [after_cons]
      exact ih
    case isFalse other => rw [Setting.after_other (mt decide_eq_true other), ih, ofField]

/-- A layer leaves a field as it is, or does what one setting does. -/
lemma SetsOnce.after_cases (once : layer.SetsOnce name) :
    (∀ value?, layer.after name value? = value?) ∨
      ∃ setting ∈ layer.ofField name, Setting.fieldOfKey setting.1 = some name ∧
        ∀ value?, layer.after name value? = Setting.after name value? setting := by
  cases own : layer.ofField name with
  | nil =>
    left
    intro value?
    rw [after_ofField, own]
    rfl
  | cons setting others =>
    right
    obtain rfl : others = [] := by
      have count := once
      rw [SetsOnce, own, List.length_cons] at count
      exact List.eq_nil_of_length_eq_zero (by omega)
    have mem : setting ∈ layer.ofField name := own ▸ List.mem_singleton_self setting
    refine ⟨setting, List.mem_singleton_self setting,
      of_decide_eq_true (List.mem_filter.mp mem).2, fun value? => ?_⟩
    rw [after_ofField, own, after_cons, after, List.foldl_nil]

/-- The values that the layers set a field to, from the highest to the lowest. -/
def valuesOf (name : String) (layers : List Settings) : List Setting :=
  layers.reverse.filterMap (·.valueOf? name)

/-- The value that counts for a field: that of the highest layer that sets it to something other
than an empty table, and an empty table only where there is none. -/
def highest? (name : String) (layers : List Settings) : Option Setting :=
  ((valuesOf name layers).find? (!·.isEmptyTable)).or (valuesOf name layers).head?

/-- A layer that sets the field puts its value on top. -/
lemma valuesOf_concat_of_some (sets : layer.valueOf? name = some value) :
    valuesOf name (layers ++ [layer]) = value :: valuesOf name layers := by
  simp [valuesOf, sets]

/-- A layer that leaves the field does not count. -/
lemma highest?_concat_of_none (leaves : layer.valueOf? name = none) :
    highest? name (layers ++ [layer]) = highest? name layers := by
  have same : valuesOf name (layers ++ [layer]) = valuesOf name layers := by
    simp [valuesOf, leaves]
  rw [highest?, same, highest?]

/-- A layer on top with a value that is no empty table counts. -/
lemma highest?_concat_of_full (sets : layer.valueOf? name = some value)
    (full : ¬ value.isEmptyTable) : highest? name (layers ++ [layer]) = some value := by
  rw [highest?, valuesOf_concat_of_some sets, List.find?_cons_of_pos (by simpa using full),
    Option.some_or]

section Conversion
variable {α : Type} {convert? : Setting → Option α} (refuses : Setting.Refuses convert?)
include refuses

/-- An empty table in the highest layer is converted as what counts below it. -/
lemma map_highest?_concat_of_empty (sets : layer.valueOf? name = some (.table [])) :
    (highest? name (layers ++ [layer])).map convert? =
      some (convert? ((highest? name layers).getD .null)) := by
  rw [highest?, highest?, valuesOf_concat_of_some sets]
  generalize valuesOf name layers = values
  have passed : (Setting.table [] :: values).find? (!·.isEmptyTable) =
      values.find? (!·.isEmptyTable) := rfl
  rw [passed]
  cases found : values.find? (!·.isEmptyTable) with
  | some value => rfl
  | none =>
    -- All layers that set the field set it to an empty table, which has no value.
    cases values with
    | nil => exact congrArg some ((refuses.table []).trans refuses.null.symm)
    | cons value values =>
      have nothing := List.find?_eq_none.mp found value List.mem_cons_self
      rw [Bool.not_eq_true', Bool.not_eq_false] at nothing
      rw [Setting.eq_of_isEmptyTable nothing]
      rfl

/-- What the layers give together is converted as the value that counts. -/
lemma map_after_flatten (once : ∀ layer ∈ layers, layer.SetsOnce name)
    (whole : ∀ layer ∈ layers, (∀ items, convert? (.list items) = none) ∨ layer.SetsWhole name) :
    (Settings.after name none layers.flatten).map convert? =
      (highest? name layers).map convert? := by
  induction layers using List.reverseRecOn with
  | nil => rfl
  | append_singleton layers layer ih =>
    rw [List.forall_mem_append, List.forall_mem_singleton] at once whole
    have below := ih once.1 whole.1
    rw [List.flatten_append, List.flatten_singleton, after_append]
    generalize Settings.after name none layers.flatten = value? at below ⊢
    obtain leaves | ⟨setting, mem, own, does⟩ := once.2.after_cases
    · rw [leaves, highest?_concat_of_none (leaves none), below]
    rw [does]
    -- The layer replaces the value, lays an empty table over it, or makes it something that is
    -- converted to nothing, whatever is below it.
    obtain ⟨new, full, replaces⟩ | lays | refused :=
      Setting.after_cases refuses own (whole.2.imp_right fun whole => whole setting mem)
    · rw [replaces, highest?_concat_of_full ((does none).trans (replaces none)) full]
    · have sets : layer.valueOf? name = some (.table []) := by
        rw [valueOf?, does, lays]
        rfl
      have same : convert? (value?.getD .null) = convert? ((highest? name layers).getD .null) := by
        rw [← Option.getD_map convert?, below, Option.getD_map]
      rw [lays, map_highest?_concat_of_empty refuses sets, Option.map_some,
        refuses.convert?_overlay, same]
    · obtain ⟨new, -, nothing, made⟩ := refused value?
      obtain ⟨alone, full, nothing_alone, made_alone⟩ := refused none
      have sets : layer.valueOf? name = some alone := (does none).trans made_alone
      rw [made, highest?_concat_of_full sets full, Option.map_some, Option.map_some, nothing,
        nothing_alone]

end Conversion

end Settings

end ContentClasses
