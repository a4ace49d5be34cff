import ContentClasses.Files.Workspace
import Mathlib.Data.List.DropRight
import Mathlib.Tactic.Lemma

/-!
# What stands in a file tree

A file tree maps locations to entries, which are directories and files. Making a directory and
writing a file change the entry at one location, as `Node.entryAt?_put` says, and a path leads
through directories to the location at which it is looked up. From these follow what `makeDirs` and
`write` do to a workspace, location by location.
-/

namespace ContentClasses.Files

/-- What stands at a location, without what is below it. -/
inductive Entry where
  | directory
  | file (content : ByteArray)

namespace Node
variable {node new : Node} {location other : Location} {name : String} {content : ByteArray}

/-- What a node is to one who does not look into it. -/
def entry : Node → Entry
  | .dir _ => .directory
  | .file content => .file content

/-- What stands at a location of a tree. -/
def entryAt? (node : Node) (location : Location) : Option Entry :=
  (node.get? location).map entry

lemma entryAt?_nil : node.entryAt? [] = some node.entry := by
  cases node <;> rfl

/-- What is seen below a directory is seen in the entry of the first name. -/
lemma entryAt?_cons_dir {entries : List (String × Node)} :
    (Node.dir entries).entryAt? (name :: other) =
      (entries.lookup name).bind (·.entryAt? other) := by
  rw [entryAt?, get?]
  cases entries.lookup name <;> rfl

/-- What is looked up is a directory exactly when it looks like one. -/
lemma any_isDir {found : Option Node} :
    found.any isDir ↔ found.map entry = some .directory := by
  cases found with
  | none => simp
  | some child => cases child <;> simp [isDir, entry]

/-- A directory is seen where one stands, with whatever entries. -/
lemma entryAt?_eq_directory :
    node.entryAt? location = some .directory ↔
      ∃ entries, node.get? location = some (.dir entries) := by
  rw [entryAt?, Option.map_eq_some_iff]
  constructor
  · rintro ⟨found, here, looks⟩
    cases found with
    | dir entries => exact ⟨entries, here⟩
    | file content => cases looks
  · rintro ⟨entries, here⟩
    exact ⟨_, here, rfl⟩

/-- A file is seen where one stands with this very content. -/
lemma entryAt?_eq_file :
    node.entryAt? location = some (.file content) ↔
      node.get? location = some (.file content) := by
  rw [entryAt?, Option.map_eq_some_iff]
  constructor
  · rintro ⟨found, here, looks⟩
    cases found with
    | dir entries => cases looks
    | file old =>
      cases looks
      exact here
  · intro here
    exact ⟨_, here, rfl⟩

/-- A node behind two locations is found by one after the other. -/
lemma get?_append : node.get? (location ++ other) = (node.get? location).bind (·.get? other) := by
  induction location generalizing node with
  | nil => cases node <;> rfl
  | cons name rest ih =>
    cases node with
    | file content => rfl
    | dir entries =>
      rw [List.cons_append, get?, get?]
      cases entries.lookup name with
      | none => rfl
      | some child => exact ih

/-- An entry of a directory stands one name below it. -/
lemma entryAt?_append_name {entries : List (String × Node)}
    (here : node.get? location = some (.dir entries)) :
    node.entryAt? (location ++ [name]) = (entries.lookup name).map entry := by
  rw [entryAt?, get?_append, here, Option.bind_some, get?]
  cases entries.lookup name with
  | none => rfl
  | some child => cases child <;> rfl

/-- Nothing stands below what is no directory. -/
lemma entryAt?_below (other : node.entryAt? location ≠ some .directory) {rest : Location} :
    node.entryAt? (location ++ name :: rest) = none := by
  rw [entryAt?, get?_append]
  cases found : node.get? location with
  | none => rfl
  | some child =>
    cases child with
    | file content => rfl
    | dir entries => exact absurd (entryAt?_eq_directory.mpr ⟨entries, found⟩) other

/-- To assign a node to a name changes what stands at and below this name. -/
lemma entryAt?_assign {entries : List (String × Node)} {first : String} {rest : Location} :
    (Node.dir (assign name new entries)).entryAt? (first :: rest) =
      if first = name then new.entryAt? rest else (Node.dir entries).entryAt? (first :: rest) := by
  rw [entryAt?_cons_dir, entryAt?_cons_dir, lookup_assign]
  split
  case isTrue => rw [Option.bind_some]
  case isFalse => rfl

/-- A node with nothing below it, assigned to a name that is no directory, changes the entry under
this name and no other. -/
lemma entryAt?_assign_bare {entries : List (String × Node)}
    (free : (Node.dir entries).entryAt? [name] ≠ some .directory)
    (bare : ∀ first rest, new.entryAt? (first :: rest) = none) :
    (Node.dir (assign name new entries)).entryAt? other =
      if other = [name] then some new.entry else (Node.dir entries).entryAt? other := by
  cases other with
  | nil => rfl
  | cons first rest =>
    rw [entryAt?_assign]
    by_cases same : first = name
    · subst same
      rw [if_pos rfl]
      cases rest with
      | nil => rw [if_pos rfl, entryAt?_nil]
      | cons second rest =>
        rw [bare, if_neg (by simp)]
        exact (entryAt?_below free).symm
    · rw [if_neg same, if_neg (by simp [same])]

/-- A node with nothing below it, put below a directory in the place of a file or of nothing,
changes the entry there and no other. -/
lemma entryAt?_put (here : node.entryAt? location = some .directory)
    (free : node.entryAt? (location ++ [name]) ≠ some .directory)
    (bare : ∀ first rest, new.entryAt? (first :: rest) = none) :
    (node.put (location ++ [name]) new).entryAt? other =
      if other = location ++ [name] then some new.entry else node.entryAt? other := by
  -- Along the location of the directory, since each entry on the way is assigned anew.
  induction location generalizing node other with
  | nil =>
    cases node with
    | file old => cases here
    | dir entries =>
      rw [List.nil_append, put, put]
      exact entryAt?_assign_bare free bare
  | cons above location ih =>
    cases node with
    | file old => cases here
    | dir entries =>
      rw [entryAt?_cons_dir] at here
      rw [List.cons_append, entryAt?_cons_dir] at free
      cases found : entries.lookup above with
      | none =>
        rw [found] at here
        cases here
      | some child =>
        rw [found, Option.bind_some] at here free
        rw [List.cons_append, put, found, Option.getD_some]
        cases other with
        | nil => rfl
        | cons first rest =>
          rw [entryAt?_assign, ih here free]
          by_cases same : first = above
          · subst same
            simp only [if_true, List.cons.injEq, true_and, entryAt?_cons_dir, found,
              Option.bind_some]
          · rw [if_neg same, if_neg (by simp [same])]

end Node

/-- The location that a step leads to. -/
def stepFrom (location : Location) : Path.Step → Location
  | .here => location
  | .up => location.dropLast
  | .name name => location ++ [name]

namespace Workspace
variable {w after : Workspace} {path : Path} {location goal : Location}
  {steps more : List Path.Step} {name : String} {content : ByteArray} {way : List Location}

/-- What stands at a location of a workspace. -/
def entryAt? (w : Workspace) (location : Location) : Option Entry :=
  w.root.entryAt? location

section Directories
variable {entries : List (String × Node)} (found : w.root.get? location = some (.dir entries))

include found

lemma entryAt?_of_dir : w.entryAt? location = some .directory :=
  Node.entryAt?_eq_directory.mpr ⟨entries, found⟩

/-- The entries of a directory are seen one name below it. -/
lemma entryAt?_child : w.entryAt? (location ++ [name]) = (entries.lookup name).map Node.entry :=
  Node.entryAt?_append_name found

lemma entryAt?_absent (absent : ¬ (entries.lookup name).isSome) :
    w.entryAt? (location ++ [name]) = none := by
  rw [entryAt?_child found, Option.not_isSome_iff_eq_none.mp absent, Option.map_none]

end Directories

/-- The locations that a path leads through, its own at the end. -/
def trail (w : Workspace) (path : Path) : List Location :=
  path.steps.scanl stepFrom (w.start path)

/-- The location that a path leads to. -/
def place (w : Workspace) (path : Path) : Location :=
  path.steps.foldl stepFrom (w.start path)

lemma put_current {node : Node} : (w.put location node).current = w.current :=
  rfl

/-- Where a path starts depends on the working directory alone. -/
lemma start_congr (same : after.current = w.current) : after.start path = w.start path := by
  rw [start, start, same]

/-- Where a path leads by its names depends on the working directory alone. -/
lemma place_congr (same : after.current = w.current) : after.place path = w.place path := by
  rw [place, place, start_congr same]

/-- Steps lead from a location through directories only. -/
structure Leads (w : Workspace) (location : Location) (steps : List Path.Step) : Prop where
  directories : ∀ l ∈ steps.scanl stepFrom location, w.entryAt? l = some .directory
  usable : ∀ name, .name name ∈ steps → isUsableName name

/-- A path that leads somewhere still does in a tree with more directories. -/
lemma Leads.mono (leads : w.Leads location steps)
    (kept : ∀ l, w.entryAt? l = some .directory → after.entryAt? l = some .directory) :
    after.Leads location steps where
  directories l mem := kept l (leads.directories l mem)
  usable := leads.usable

lemma leads_nil : w.Leads location [] ↔ w.entryAt? location = some .directory := by
  constructor
  · exact fun leads => leads.directories location List.mem_cons_self
  · intro here
    refine ⟨fun l mem => ?_, nofun⟩
    rw [List.scanl_nil] at mem
    rw [List.mem_singleton.mp mem]
    exact here

/-- The first step is taken in a directory and by a name that can be used; the others go on from
where it ends. -/
lemma leads_cons {step : Path.Step} :
    w.Leads location (step :: steps) ↔
      w.entryAt? location = some .directory ∧ (∀ name, step = .name name → isUsableName name) ∧
        w.Leads (stepFrom location step) steps := by
  constructor
  · rintro ⟨directories, usable⟩
    rw [List.scanl_cons, List.forall_mem_cons] at directories
    refine ⟨directories.1, fun name same => usable name ?_, directories.2, fun name mem => ?_⟩
    · rw [same]
      exact List.mem_cons_self
    · exact usable name (List.mem_cons_of_mem _ mem)
  · rintro ⟨here, own, directories, usable⟩
    refine ⟨?_, fun name mem => ?_⟩
    · rw [List.scanl_cons, List.forall_mem_cons]
      exact ⟨here, directories⟩
    · obtain same | later := List.mem_cons.mp mem
      · exact own name same.symm
      · exact usable name later

/-- Steps are taken from a directory. -/
lemma Leads.here (leads : w.Leads location steps) : w.entryAt? location = some .directory := by
  cases steps with
  | nil => exact leads_nil.mp leads
  | cons step steps => exact (leads_cons.mp leads).1

/-- Steps to a directory can be followed exactly when they lead there through directories. -/
lemma follow_eq_ok (ends : w.entryAt? goal = some .directory) :
    w.follow path location steps = .ok goal ↔
      w.Leads location steps ∧ steps.foldl stepFrom location = goal := by
  induction steps generalizing location with
  | nil =>
    rw [follow, leads_nil, List.foldl_nil]
    constructor
    · intro h
      cases h
      exact ⟨ends, rfl⟩
    · rintro ⟨-, rfl⟩
      rfl
  | cons step steps ih =>
    rw [leads_cons, List.foldl_cons, follow]
    cases found : w.root.get? location with
    | none => simp [entryAt?, Node.entryAt?, found]
    | some node =>
      cases node with
      | file content => simp [entryAt?, Node.entryAt?, found, Node.entry]
      | dir entries =>
        have here := entryAt?_of_dir found
        cases step with
        | here => simp [here, ih, stepFrom]
        | up => simp [here, ih, stepFrom]
        | name name =>
          by_cases usable : isUsableName name
          · by_cases there : (entries.lookup name).isSome
            · simp [here, usable, there, ih, stepFrom]
            · -- No step leads on from where nothing is.
              have stuck : ¬ w.Leads (location ++ [name]) steps := by
                intro leads
                have absent := entryAt?_absent found there
                rw [leads.here] at absent
                cases absent
              simp [usable, there, stepFrom, stuck]
          · simp [usable]

/-- The steps that lead through directories lead to one. -/
lemma Leads.there (leads : w.Leads location steps) :
    w.entryAt? (steps.foldl stepFrom location) = some .directory := by
  induction steps generalizing location with
  | nil => exact leads_nil.mp leads
  | cons step steps ih => exact ih (leads_cons.mp leads).2.2

/-- A node without anything below it, put where no directory stands, is seen at its location and
changes nothing elsewhere. -/
lemma entryAt?_put (here : w.entryAt? location = some .directory)
    (free : w.entryAt? (location ++ [name]) ≠ some .directory) {node : Node}
    (bare : ∀ first rest, node.entryAt? (first :: rest) = none) (l : Location) :
    (w.put (location ++ [name]) node).entryAt? l =
      if l = location ++ [name] then some node.entry else w.entryAt? l :=
  Node.entryAt?_put here free bare

/-- The directories that are there stay, and so does everything else, but for directories that are
new on the way. -/
structure Grown (w after : Workspace) (way : List Location) : Prop where
  current : after.current = w.current
  entries : ∀ l, after.entryAt? l = w.entryAt? l ∨
    l ∈ way ∧ w.entryAt? l = none ∧ after.entryAt? l = some .directory

namespace Grown
variable {between : Workspace}

lemma refl (w : Workspace) (way : List Location) : Grown w w way where
  current := rfl
  entries _ := .inl rfl

/-- Trees grow step by step. -/
lemma trans (first : Grown w between way) (second : Grown between after way) :
    Grown w after way where
  current := second.current.trans first.current
  entries l := by
    obtain same | ⟨mem, absent, made⟩ := second.entries l
    · rw [same]
      exact first.entries l
    · obtain same | ⟨-, -, made'⟩ := first.entries l
      · exact .inr ⟨mem, same ▸ absent, made⟩
      · rw [made'] at absent
        cases absent

lemma mono (grown : Grown w after way) {longer : List Location} (subset : way ⊆ longer) :
    Grown w after longer where
  current := grown.current
  entries l := (grown.entries l).imp_right fun ⟨mem, rest⟩ => ⟨subset mem, rest⟩

/-- A directory made where nothing stood, on the way, lets the tree grow. -/
lemma put (here : w.entryAt? location = some .directory)
    (absent : w.entryAt? (location ++ [name]) = none) (mem : location ++ [name] ∈ way) :
    Grown w (w.put (location ++ [name]) .emptyDir) way where
  current := put_current
  entries l := by
    have free : w.entryAt? (location ++ [name]) ≠ some .directory := by
      rw [absent]
      nofun
    rw [entryAt?_put here free fun _ _ => rfl]
    by_cases same : l = location ++ [name]
    · rw [if_pos same, same]
      exact .inr ⟨mem, absent, rfl⟩
    · rw [if_neg same]
      exact .inl rfl

end Grown

/-- Making the directories on the way of some steps changes nothing else, even where it fails. -/
lemma makeSteps_grown :
    Grown w (w.makeSteps path location steps).2 (steps.scanl stepFrom location) := by
  induction steps generalizing w location with
  | nil => exact .refl w _
  | cons step steps ih =>
    rw [makeSteps, List.scanl_cons]
    -- Where a step fails, the directories that were made in front of it stay.
    have later (next : Workspace) (l : Location) :
        Grown next (next.makeSteps path l steps).2 (location :: steps.scanl stepFrom l) :=
      ih.mono (List.subset_cons_self _ _)
    cases found : w.root.get? location with
    | none => exact .refl w _
    | some node =>
      cases node with
      | file content => exact .refl w _
      | dir entries =>
        cases step with
        | here => exact later w location
        | up => exact later w location.dropLast
        | name name =>
          by_cases usable : isUsableName name
          · by_cases there : (entries.lookup name).isSome
            · simp only [usable, there, Bool.not_true, Bool.false_eq_true, if_false, if_true]
              exact later w (location ++ [name])
            · simp only [usable, there, Bool.not_true, Bool.false_eq_true, if_false]
              refine (Grown.put (entryAt?_of_dir found) (entryAt?_absent found there) ?_).trans
                (later _ (location ++ [name]))
              cases steps <;> simp [stepFrom]
          · simp only [usable, Bool.not_false, if_true]
            exact .refl w _

/-- The directories that are made for a path lie on the path. -/
lemma stepsToMake_prefix (path : Path) : stepsToMake path <+: path.steps := by
  unfold stepsToMake
  split
  case isTrue =>
    exact (List.dropLast_prefix _).trans
      (List.rdropWhile_prefix (· == Path.Step.here) path.steps)
  case isFalse => exact List.prefix_refl _

/-- Making the directory of a path makes no more than what is missing on the way to it. -/
lemma makeDirs_grown (w : Workspace) (path : Path) :
    Grown w (w.makeDirs path).2 (w.trail path) := by
  unfold makeDirs
  split
  case isTrue => exact .refl w _
  case isFalse =>
    split
    case isTrue => exact .refl w _
    case isFalse =>
      have made :
          Grown w (w.makeSteps path (w.start path) (stepsToMake path)).2 (w.trail path) := by
        obtain ⟨rest, split⟩ := stepsToMake_prefix path
        refine makeSteps_grown.mono fun l mem => ?_
        rw [trail, ← split, List.scanl_append]
        exact List.mem_append_left _ mem
      split
      case h_1 failed =>
        rw [failed] at made
        exact made
      case h_2 ok =>
        rw [ok] at made
        exact made

/-- A path leads to an entry of a directory: its last step is a name, and the others lead through
directories. -/
structure LeadsTo (w : Workspace) (path : Path) : Prop where
  usable : isUsablePath path
  steps : ∃ steps name, path.steps = steps ++ [.name name] ∧ isUsableName name ∧
    w.Leads (w.start path) steps

/-- A path that leads to a directory still does where all directories are kept. -/
lemma LeadsTo.mono (leads : w.LeadsTo path) (same : after.current = w.current)
    (kept : ∀ l, w.entryAt? l = some .directory → after.entryAt? l = some .directory) :
    after.LeadsTo path where
  usable := leads.usable
  steps := by
    obtain ⟨steps, name, split, named, through⟩ := leads.steps
    refine ⟨steps, name, split, named, ?_⟩
    rw [start_congr same]
    exact through.mono kept

/-- The last name of a path stands below the directory to which the steps in front of it lead. -/
lemma place_of_split (split : path.steps = steps ++ [.name name]) :
    w.place path = steps.foldl stepFrom (w.start path) ++ [name] := by
  rw [place, split, List.foldl_append]
  rfl

/-- A file that is written stands where its path leads, in the place of a file or of nothing. -/
lemma write_eq_ok (h : w.write path content = (.ok (), after)) :
    w.LeadsTo path ∧ w.entryAt? (w.place path) ≠ some .directory ∧
      after = w.put (w.place path) (.file content) := by
  unfold write at h
  split at h
  case isTrue => cases h
  case isFalse usable =>
    rw [Bool.not_eq_true', Bool.not_eq_false] at usable
    split at h
    case h_2 => cases h
    case h_1 name last =>
      -- Only a path that ends in a name can be written to.
      have split : path.steps = path.steps.dropLast ++ [.name name] :=
        (List.dropLast_append_getLast? _ last).symm
      cases followed : w.follow path (w.start path) path.steps.dropLast with
      | error failure =>
        rw [followed] at h
        cases h
      | ok location =>
        rw [followed] at h
        cases found : w.root.get? location with
        | none => simp [found] at h
        | some node =>
          cases node with
          | file old => simp [found] at h
          | dir entries =>
            -- The steps in front of the name have been followed to the directory above it.
            obtain ⟨leads, ends⟩ := (follow_eq_ok (entryAt?_of_dir found)).mp followed
            have place : w.place path = location ++ [name] := by
              rw [place_of_split split, ends]
            simp only [found] at h
            split at h
            case isTrue => cases h
            case isFalse named =>
              rw [Bool.not_eq_true', Bool.not_eq_false] at named
              split at h
              case isTrue => cases h
              case isFalse free =>
                cases h
                refine ⟨⟨usable, _, name, split, named, leads⟩, ?_, ?_⟩
                · rw [place, entryAt?_child found, ne_eq, ← Node.any_isDir]
                  exact free
                · rw [place]

/-- Steps can be followed in two parts. -/
lemma follow_append :
    w.follow path location (steps ++ more) =
      w.follow path location steps >>= fun l => w.follow path l more := by
  induction steps generalizing location with
  | nil => rfl
  | cons step steps ih =>
    rw [List.cons_append, follow, follow]
    cases w.root.get? location with
    | none => rfl
    | some node =>
      cases node with
      | file content => rfl
      | dir entries =>
        cases step with
        | here => exact ih
        | up => exact ih
        | name name =>
          simp only [ih]
          split
          · rfl
          · split <;> rfl

/-- A path to an entry of a directory is looked up there. -/
lemma LeadsTo.locate (leads : w.LeadsTo path) (there : (w.entryAt? (w.place path)).isSome) :
    w.locate path = .ok (w.place path) := by
  obtain ⟨steps, name, split, named, through⟩ := leads.steps
  have followed : w.follow path (w.start path) steps = .ok (steps.foldl stepFrom (w.start path)) :=
    (follow_eq_ok through.there).mpr ⟨through, rfl⟩
  obtain ⟨entries, found⟩ := Node.entryAt?_eq_directory.mp through.there
  rw [place_of_split split] at there ⊢
  rw [entryAt?_child found, Option.isSome_map] at there
  rw [Workspace.locate, if_pos leads.usable, split, follow_append, followed]
  show w.follow path _ [.name name] = _
  rw [follow, found]
  simp only [named, there, Bool.not_true, Bool.false_eq_true, if_false, if_true, follow]

/-- A file to which a path leads can be read by it. -/
lemma LeadsTo.read (leads : w.LeadsTo path)
    (there : w.entryAt? (w.place path) = some (.file content)) : w.read path = .ok content := by
  have located := leads.locate (by rw [there]; rfl)
  have found : w.root.get? (w.place path) = some (.file content) := Node.entryAt?_eq_file.mp there
  simp only [Workspace.read, located, bind, Except.bind, found]
  rfl

end Workspace

end ContentClasses.Files
