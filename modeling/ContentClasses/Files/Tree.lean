/-!
# File trees

A directory holds entries by name, a file holds bytes. A location is the list of names that leads
from the top of a tree to one of its nodes.
-/

namespace ContentClasses.Files

/-- A file or a directory. -/
inductive Node where
  | file (content : ByteArray)
  | dir (entries : List (String × Node))

/-- The names that lead to a node. -/
abbrev Location := List String

/-- The list of entries in which `name` has the given value: in its old place, or at the end. -/
def assign {α : Type} (name : String) (value : α) : List (String × α) → List (String × α)
  | [] => [(name, value)]
  | (other, old) :: entries =>
    if other = name then (name, value) :: entries else (other, old) :: assign name value entries

/-- Assigning changes what is found under the assigned name and nothing else. -/
theorem lookup_assign {α : Type} (name other : String) (value : α)
    (entries : List (String × α)) :
    (assign name value entries).lookup other =
      if other = name then some value else entries.lookup other := by
  induction entries with
  | nil =>
    rw [assign, List.lookup_cons]
    by_cases h : other = name
    · simp [h]
    · simp [h, beq_eq_false_iff_ne.2 h]
  | cons entry entries ih =>
    obtain ⟨key, old⟩ := entry
    rw [assign, List.lookup_cons]
    by_cases hk : key = name
    · rw [if_pos hk, List.lookup_cons]
      by_cases h : other = name
      · simp [h]
      · simp [hk, h, beq_eq_false_iff_ne.2 h]
    · rw [if_neg hk, List.lookup_cons, ih]
      by_cases ho : other = key
      · simp [ho, hk]
      · simp [beq_eq_false_iff_ne.2 ho]

namespace Node

/-- A directory without entries. -/
def emptyDir : Node :=
  .dir []

/-- The node is a directory. -/
def isDir : Node → Bool
  | .dir _ => true
  | .file _ => false

/-- The node at a location. -/
def get? : Node → Location → Option Node
  | node, [] => some node
  | .dir entries, name :: rest => (entries.lookup name).bind (get? · rest)
  | .file _, _ :: _ => none

/-- The tree with another node at a location. Directories on the way are made; a file on the way
stays, and the tree with it. -/
def put : Node → Location → Node → Node
  | _, [], new => new
  | .dir entries, name :: rest, new =>
    .dir (assign name (put ((entries.lookup name).getD emptyDir) rest new) entries)
  | .file content, _ :: _, _ => .file content

mutual

/-- The files of a tree with their locations. The entries of every directory come in the order of
their names: code point by code point, which is the order of their bytes in UTF-8. -/
def files : Node → List (Location × ByteArray)
  | .file content => [([], content)]
  | .dir entries =>
    ((entryFiles entries).mergeSort fun a b => a.1 ≤ b.1).flatMap fun (name, files) =>
      files.map fun (location, content) => (name :: location, content)

/-- The files below each entry of a directory. -/
def entryFiles : List (String × Node) → List (String × List (Location × ByteArray))
  | [] => []
  | (name, node) :: entries => (name, files node) :: entryFiles entries

end

mutual

/-- Every node of a tree but the top with its location. A directory stands before its entries. -/
def listing : Node → List (Location × Node)
  | .file _ => []
  | .dir entries => listingOfEntries entries

/-- Every node at or below the entries of a directory. -/
def listingOfEntries : List (String × Node) → List (Location × Node)
  | [] => []
  | (name, node) :: entries =>
    ([name], node) :: (listing node).map (fun (location, below) => (name :: location, below)) ++
      listingOfEntries entries

end

/-- Two nodes are the same to one who looks at them without looking into directories. -/
def looksLike : Node → Node → Bool
  | .dir _, .dir _ => true
  | .file a, .file b => a == b
  | _, _ => false

/-- The nodes of `after` that are new or changed since `before`. -/
def changes (before after : Node) : List (Location × Node) :=
  after.listing.filter fun (location, node) =>
    match before.get? location with
    | some old => !old.looksLike node
    | none => true

end Node

end ContentClasses.Files
