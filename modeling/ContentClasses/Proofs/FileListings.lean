import ContentClasses.Proofs.ByteOrder
import ContentClasses.Proofs.Entries
import Mathlib.Data.List.Sort

/-!
# Listings of files

The files of a tree, depth first and by name, are all that can be found in it, each once, in the
order of their locations: name by name, and the names in the order of their bytes. `InOrder.ext`
says that there is only one such list.
-/

namespace ContentClasses.Files

/-- The names of a location in bytes. -/
def Location.bytes (location : Location) : List (List UInt8) :=
  location.map Text.utf8

/-- The files come in the order of their locations, compared name by name and byte by byte, and none
comes twice. -/
def InOrder (files : List (Location × ByteArray)) : Prop :=
  files.Pairwise fun a b => Location.bytes a.1 < Location.bytes b.1

namespace Node
variable {node : Node} {entries : List (String × Node)} {name : String} {location : Location}
  {content : ByteArray}

/-- No directory of the tree has two entries of one name. -/
def Proper (node : Node) : Prop :=
  ∀ location entries, node.get? location = some (.dir entries) → (entries.map Prod.fst).Nodup

lemma Proper.nodup (proper : (Node.dir entries).Proper) : (entries.map Prod.fst).Nodup :=
  proper [] entries rfl

/-- Without repetitions an entry is found by its name exactly when it is there. -/
lemma lookup_eq_some_iff {node : Node} (nodup : (entries.map Prod.fst).Nodup) :
    entries.lookup name = some node ↔ (name, node) ∈ entries := by
  induction entries with
  | nil => simp
  | cons entry entries ih =>
    obtain ⟨first, other⟩ := entry
    rw [List.map_cons, List.nodup_cons] at nodup
    rw [List.lookup_cons, List.mem_cons]
    by_cases same : name = first
    · subst same
      rw [beq_self_eq_true]
      simp only [Option.some.injEq, Prod.mk.injEq, true_and]
      refine ⟨fun eq => .inl eq.symm, fun there => there.elim Eq.symm fun later => ?_⟩
      exact absurd (List.mem_map_of_mem later) nodup.1
    · rw [beq_eq_false_iff_ne.mpr same]
      simp only [Prod.mk.injEq, same, false_and, false_or]
      exact ih nodup.2

/-- What stands in a tree without repetitions has none. -/
lemma Proper.child {node : Node} (proper : (Node.dir entries).Proper)
    (mem : (name, node) ∈ entries) : node.Proper := by
  intro location inner there
  refine proper (name :: location) inner ?_
  rw [get?, (lookup_eq_some_iff proper.nodup).mpr mem]
  exact there

lemma proper_file : (Node.file content).Proper := by
  intro location inner there
  cases location <;> cases there

/-- A directory with distinct names over trees without repetitions has none. -/
lemma proper_dir (nodup : (entries.map Prod.fst).Nodup)
    (children : ∀ entry ∈ entries, entry.2.Proper) : (Node.dir entries).Proper := by
  intro location inner there
  cases location with
  | nil =>
    cases there
    exact nodup
  | cons name rest =>
    obtain ⟨child, found, there⟩ := Option.bind_eq_some_iff.mp there
    exact children _ ((lookup_eq_some_iff nodup).mp found) rest inner there

/-- The files of the entries are listed entry by entry. -/
lemma entryFiles_eq : entryFiles entries = entries.map fun entry => (entry.1, files entry.2) := by
  induction entries with
  | nil => rfl
  | cons entry entries ih =>
    obtain ⟨name, node⟩ := entry
    rw [entryFiles, ih, List.map_cons]

/-- The files below each entry of a directory, in the order of the names. -/
def sortedEntryFiles (entries : List (String × Node)) :
    List (String × List (Location × ByteArray)) :=
  (entryFiles entries).mergeSort fun a b => a.1 ≤ b.1

/-- The files of a directory are those of its entries in the order of their names, each location
with the name in front. -/
lemma files_dir :
    (Node.dir entries).files =
      (sortedEntryFiles entries).flatMap fun entry =>
        entry.2.map fun file => (entry.1 :: file.1, file.2) := by
  rw [files]
  rfl

lemma mem_sortedEntryFiles {files : List (Location × ByteArray)} :
    (name, files) ∈ sortedEntryFiles entries ↔
      ∃ node, (name, node) ∈ entries ∧ files = node.files := by
  rw [sortedEntryFiles, List.mem_mergeSort, entryFiles_eq, List.mem_map]
  constructor
  · rintro ⟨⟨name, node⟩, mem, eq⟩
    cases eq
    exact ⟨node, mem, rfl⟩
  · rintro ⟨node, mem, rfl⟩
    exact ⟨(name, node), mem, rfl⟩

/-- The files of a tree are those that are found in it. -/
lemma mem_files (proper : node.Proper) :
    (location, content) ∈ node.files ↔ node.get? location = some (.file content) := by
  -- Induction on the location, which leads one directory down with each name.
  induction location generalizing node with
  | nil =>
    cases node with
    | file other => simp [files, get?, eq_comm]
    | dir entries =>
      rw [files_dir, get?]
      simp
  | cons name rest ih =>
    cases node with
    | file other => simp [files, get?]
    | dir entries =>
      rw [files_dir, get?, List.mem_flatMap]
      constructor
      · rintro ⟨⟨first, inner⟩, mem, there⟩
        obtain ⟨⟨below, bytes⟩, inside, eq⟩ := List.mem_map.mp there
        cases eq
        obtain ⟨child, own, rfl⟩ := mem_sortedEntryFiles.mp mem
        rw [(lookup_eq_some_iff proper.nodup).mpr own]
        exact (ih (proper.child own)).mp inside
      · intro there
        obtain ⟨child, found, there⟩ := Option.bind_eq_some_iff.mp there
        have mem := (lookup_eq_some_iff proper.nodup).mp found
        refine ⟨(name, child.files), mem_sortedEntryFiles.mpr ⟨child, mem, rfl⟩, ?_⟩
        exact List.mem_map.mpr ⟨(rest, content), (ih (proper.child mem)).mpr there, rfl⟩

/-- Of two entries of a directory the one with the lower name comes first. -/
lemma sortedEntryFiles_pairwise (nodup : (entries.map Prod.fst).Nodup) :
    (sortedEntryFiles entries).Pairwise fun a b => a.1 < b.1 := by
  have sorted : (sortedEntryFiles entries).Pairwise fun a b => a.1 ≤ b.1 := by
    refine (List.pairwise_mergeSort ?_ ?_ _).imp of_decide_eq_true
    · intro a b c first second
      exact decide_eq_true (String.le_trans (of_decide_eq_true first) (of_decide_eq_true second))
    · intro a b
      simpa using String.le_total a.1 b.1
  have distinct : (sortedEntryFiles entries).Pairwise fun a b => a.1 ≠ b.1 := by
    have names : ((entryFiles entries).map Prod.fst).Nodup := by
      rw [entryFiles_eq, List.map_map]
      exact nodup
    have perm := (List.mergeSort_perm (entryFiles entries) fun a b => a.1 ≤ b.1).map Prod.fst
    exact List.pairwise_map.mp (perm.nodup_iff.mpr names)
  refine (sorted.and distinct).imp fun ⟨before, other⟩ => ?_
  exact String.not_le.mp fun behind => other (String.le_antisymm before behind)

/-- The files of a tree come in order: those of an entry before those of an entry behind it, and
those below one entry in the order of what is behind its name. -/
lemma files_inOrder (proper : node.Proper) : InOrder node.files := by
  induction size : sizeOf node using Nat.strongRecOn generalizing node with
  | ind n ih =>
    cases node with
    | file content => exact List.pairwise_singleton _ _
    | dir entries =>
      rw [files_dir, InOrder, List.pairwise_flatMap]
      constructor
      · rintro ⟨name, inner⟩ mem
        obtain ⟨child, own, rfl⟩ := mem_sortedEntryFiles.mp mem
        have smaller : sizeOf child < n := by
          have below := List.sizeOf_lt_of_mem own
          simp only [Node.dir.sizeOf_spec, Prod.mk.sizeOf_spec] at size below
          omega
        rw [List.pairwise_map]
        refine (ih _ smaller (proper.child own) rfl).imp fun before => ?_
        exact List.cons_lt_cons_iff.mpr (.inr ⟨rfl, before⟩)
      · refine (sortedEntryFiles_pairwise proper.nodup).imp fun {a b} lower x first y second => ?_
        obtain ⟨file, -, rfl⟩ := List.mem_map.mp first
        obtain ⟨other, -, rfl⟩ := List.mem_map.mp second
        exact List.cons_lt_cons_iff.mpr (.inl (Text.utf8_lt lower))

end Node

/-- Two lists in order with the same files are the same. -/
lemma InOrder.ext {files others : List (Location × ByteArray)} (first : InOrder files)
    (second : InOrder others) (same : ∀ file, file ∈ files ↔ file ∈ others) : files = others :=
  first.eq_of_mem_iff second same

end ContentClasses.Files
