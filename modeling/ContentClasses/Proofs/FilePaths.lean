import ContentClasses.Proofs.WrittenFiles
import ContentClasses.Text.Lines

/-!
# Paths of files

A path leads to a file exactly when it goes through directories to one, and its last name is the end
of its text. The absolute form of a path leads where the path itself does. Writing a file makes one
path more lead to a file, and leaves every other file as it was: `FileWritten`.
-/

namespace ContentClasses

open Files (Location Workspace)

namespace Path
variable {p : Path} {name : String} {front tail : List Char} {steps : List Step}

/-- A step by a name comes from the part that is this name. -/
lemma Step.eq_of_ofPart {part : String} (own : Step.ofPart part = .name name) : part = name := by
  rw [ofPart] at own
  split at own
  case isTrue => cases own
  case isFalse =>
    split at own <;> cases own
    rfl

/-- What stands at the end of a text without a separator is the end of its last part. -/
lemma getLast?_splitOn (plain : separator ∉ tail) (front : List Char) :
    ∃ stem, ((front ++ tail).splitOn separator).getLast? = some (stem ++ tail) := by
  induction front with
  | nil =>
    rw [List.nil_append, List.splitOn_eq_singleton plain]
    exact ⟨[], rfl⟩
  | cons c front ih =>
    obtain ⟨stem, last⟩ := ih
    obtain ⟨part, parts, split⟩ :=
      List.exists_cons_of_ne_nil (List.splitOn_ne_nil separator (front ++ tail))
    rw [List.cons_append, List.splitOn_cons_eq_if_modifyHead]
    rw [split] at last ⊢
    rw [List.modifyHead_cons]
    split
    case isTrue => exact ⟨stem, by rw [List.getLast?_cons_cons, last]⟩
    case isFalse =>
      cases parts with
      | nil =>
        cases last
        exact ⟨c :: stem, rfl⟩
      | cons next parts => exact ⟨stem, by rw [List.getLast?_cons_cons] at last ⊢; exact last⟩

/-- The last name of a path ends like its text. -/
lemma exists_stem (plain : separator ∉ tail) (text : p.text.toList = front ++ tail)
    (split : p.steps = steps ++ [.name name]) : ∃ stem, name.toList = stem ++ tail := by
  obtain ⟨stem, last⟩ := getLast?_splitOn plain front
  have own : p.steps.getLast? = some (Step.ofPart (String.ofList (stem ++ tail))) := by
    rw [Path.steps, parts, Text.split, text, List.getLast?_map, List.getLast?_map, last]
    rfl
  rw [split, List.getLast?_concat] at own
  refine ⟨stem, ?_⟩
  rw [← Step.eq_of_ofPart (Option.some.inj own).symm, String.toList_ofList]

/-- The name that a path ends with is its last part. -/
lemma exists_parts (split : p.steps = steps ++ [.name name]) :
    ∃ parts, p.parts = parts ++ [name] ∧ Step.ofPart name = .name name := by
  have last : (p.parts.map Step.ofPart).getLast? = some (.name name) := by
    rw [← Path.steps, split, List.getLast?_concat]
  rw [List.getLast?_map] at last
  obtain ⟨part, own, step⟩ := Option.map_eq_some_iff.mp last
  obtain rfl := Step.eq_of_ofPart step
  exact ⟨p.parts.dropLast, (List.dropLast_append_getLast? _ own).symm, step⟩

/-- There is nothing to leave out at the end of a path that ends with a name. -/
lemma withoutEnd_eq (split : p.steps = steps ++ [.name name]) : p.withoutEnd = p := by
  have chars : p.parts.map String.toList = p.text.toList.splitOn separator := by
    simp [Path.parts, Text.split]
  obtain ⟨parts, last, step⟩ := exists_parts split
  have kept : ¬ (name.toList = [] ∨ name.toList = ['.']) := by
    rintro (empty | dot)
    · obtain rfl : name = "" := String.toList_inj.mp empty
      cases step
    · obtain rfl : name = "." := String.toList_inj.mp dot
      cases step
  have whole : ((p.parts.map String.toList).reverse.dropWhile
      fun part => part = [] ∨ part = ['.']).reverse = p.parts.map String.toList := by
    rw [last, List.map_append, List.map_singleton, List.reverse_append, List.reverse_singleton,
      List.singleton_append, List.dropWhile_cons_of_neg (by simpa using kept), List.reverse_cons,
      List.reverse_reverse]
  rw [withoutEnd, whole, chars, List.intercalate_splitOn, String.ofList_toList]

/-- A path that ends in a name has it as its file name. -/
lemma fileName?_eq (split : p.steps = steps ++ [.name name]) : p.fileName? = some name := by
  have last : (p.steps.filter (· ≠ .here)).getLast? = some (.name name) := by
    simp [split]
  rw [fileName?, last]

/-- Dots in front of a name are steps that lead nowhere. -/
lemma steps_dots (n : Nat) (plain : separator ∉ name.toList) :
    (Path.mk (String.join (List.replicate n "./") ++ name)).steps =
      List.replicate n .here ++ [Step.ofPart name] := by
  induction n with
  | zero =>
    have whole : String.join (List.replicate 0 "./") ++ name = name := by simp
    rw [whole, Path.steps, parts_of_plain plain]
    rfl
  | succ n ih =>
    have split : (String.join (List.replicate (n + 1) "./") ++ name).toList =
        ['.'] ++ separator :: (String.join (List.replicate n "./") ++ name).toList := by
      simp [List.replicate_succ, separator]
    rw [Path.steps] at ih
    rw [Path.steps, parts_append split, List.map_append, String.ofList_toList, ih]
    rfl

/-- Each step that stays where it is takes two bytes of a path. -/
lemma utf8ByteSize_dots (n : Nat) :
    (String.join (List.replicate n "./") ++ name).utf8ByteSize = 2 * n + name.utf8ByteSize := by
  induction n with
  | zero => simp
  | succ n ih =>
    have split : String.join (List.replicate (n + 1) "./") ++ name =
        "./" ++ (String.join (List.replicate n "./") ++ name) := by
      rw [List.replicate_succ, String.join_cons, String.append_assoc]
    have two : "./".utf8ByteSize = 2 := rfl
    rw [split, String.utf8ByteSize_append, ih, two]
    omega

end Path

namespace Files.Workspace
variable {w after : Workspace} {path file : Path} {location goal : Location} {name : String}
  {steps : List Path.Step} {content : ByteArray}

/-- The directory above a directory is one. -/
lemma entryAt?_dropLast (there : w.entryAt? location = some .directory) :
    w.entryAt? location.dropLast = some .directory := by
  obtain rfl | ⟨above, last, rfl⟩ := List.eq_nil_or_concat' location
  · exact there
  · rw [List.dropLast_concat]
    by_contra other
    rw [entryAt?, Node.entryAt?_below other] at there
    cases there

/-- Steps lead on in two parts, the second from where the first one ends. -/
lemma leads_append {more : List Path.Step} :
    w.Leads location (steps ++ more) ↔
      w.Leads location steps ∧ w.Leads (steps.foldl stepFrom location) more := by
  induction steps generalizing location with
  | nil => exact ⟨fun leads => ⟨leads_nil.mpr leads.here, leads⟩, And.right⟩
  | cons step steps ih =>
    rw [List.cons_append, leads_cons, leads_cons, ih, List.foldl_cons]
    simp only [and_assoc]

lemma leads_here : w.Leads location (.here :: steps) ↔ w.Leads location steps :=
  ⟨fun leads => (leads_cons.mp leads).2.2,
    fun leads => leads_cons.mpr ⟨leads.here, fun _ same => (by cases same), leads⟩⟩

/-- Steps that can be followed start in a directory, and the first of them with a name that can
be used. -/
lemma follow_cons {step : Path.Step}
    (followed : w.follow path location (step :: steps) = .ok goal) :
    w.entryAt? location = some .directory ∧ (∀ name, step = .name name → isUsableName name) ∧
      w.follow path (stepFrom location step) steps = .ok goal := by
  rw [follow] at followed
  cases found : w.root.get? location with
  | none =>
    rw [found] at followed
    cases followed
  | some node =>
    rw [found] at followed
    cases node with
    | file content => cases followed
    | dir entries =>
      refine ⟨entryAt?_of_dir found, ?_⟩
      cases step with
      | here => exact ⟨fun _ same => (by cases same), followed⟩
      | up => exact ⟨fun _ same => (by cases same), followed⟩
      | name name =>
        dsimp only at followed
        split at followed
        case isTrue => cases followed
        case isFalse usable =>
          split at followed
          case isFalse => cases followed
          case isTrue =>
            refine ⟨fun own same => ?_, followed⟩
            cases same
            simpa using usable

/-- Steps that can be followed to a file go through directories to its name. -/
lemma leads_of_follow (full : steps ≠ []) (followed : w.follow path location steps = .ok goal)
    (there : w.entryAt? goal = some (.file content)) :
    ∃ front name, steps = front ++ [.name name] ∧ isUsableName name ∧ w.Leads location front ∧
      front.foldl stepFrom location ++ [name] = goal := by
  induction steps generalizing location with
  | nil => exact absurd rfl full
  | cons step steps ih =>
    obtain ⟨here, usable, followed⟩ := follow_cons followed
    by_cases last : steps = []
    · subst last
      cases followed
      cases step with
      | here =>
        rw [stepFrom, here] at there
        cases there
      | up =>
        rw [stepFrom, entryAt?_dropLast here] at there
        cases there
      | name name => exact ⟨[], name, rfl, usable name rfl, leads_nil.mpr here, rfl⟩
    · obtain ⟨front, name, rfl, named, leads, ends⟩ := ih last followed
      exact ⟨step :: front, name, rfl, named, leads_cons.mpr ⟨here, usable, leads⟩, ends⟩

/-- A path that ends with a name can be used if it can with more behind it. -/
lemma isUsablePath_of_append {text : String} (split : path.steps = steps ++ [.name name])
    (longer : file.text = path.text ++ text) (usable : isUsablePath file) : isUsablePath path := by
  have full : path.text ≠ "" := by
    intro empty
    have whole : path = ⟨""⟩ := congrArg Path.mk empty
    obtain ⟨parts, own, step⟩ := Path.exists_parts split
    rw [whole, Path.parts_of_plain (by decide)] at own
    obtain rfl : "" = name := by simpa using congrArg List.getLast? own
    cases step
  simp only [isUsablePath, longer, String.utf8ByteSize_append, String.toList_append,
    Bool.and_eq_true, decide_eq_true_eq, Bool.not_eq_true', List.contains_eq_mem,
    decide_eq_false_iff_not, List.mem_append, not_or] at usable ⊢
  exact ⟨⟨full, by omega⟩, usable.2.1⟩

lemma steps_ne_nil (path : Path) : path.steps ≠ [] := by
  rw [Path.steps, Path.parts, Text.split]
  simp

/-- A path is that of a file when it leads to a place where a file stands. -/
lemma isFile_iff :
    w.isFile path ↔
      w.LeadsTo path ∧ ∃ content, w.entryAt? (w.place path) = some (.file content) := by
  constructor
  · intro file
    rw [isFile, node?] at file
    cases located : w.locate path with
    | error failure =>
      rw [located] at file
      cases file
    | ok goal =>
      rw [located] at file
      obtain ⟨node, found, plain⟩ := (Option.any_eq_true _ _).mp file
      cases node with
      | dir entries => cases plain
      | file content =>
        have there : w.entryAt? goal = some (.file content) := Node.entryAt?_eq_file.mpr found
        rw [locate] at located
        split at located
        case isFalse => cases located
        case isTrue usable =>
          obtain ⟨front, name, split, named, leads, ends⟩ :=
            leads_of_follow (steps_ne_nil path) located there
          refine ⟨⟨usable, front, name, split, named, leads⟩, content, ?_⟩
          rw [place_of_split split, ends, there]
  · rintro ⟨leads, content, there⟩
    have located := leads.locate (by rw [there]; rfl)
    simp [isFile, node?, located, Node.entryAt?_eq_file.mp there, Node.isDir]

/-- A path leads to a directory exactly when all its steps lead through directories. -/
lemma node?_eq_dir :
    (∃ entries, w.node? path = some (.dir entries)) ↔
      isUsablePath path ∧ w.Leads (w.start path) path.steps := by
  constructor
  · rintro ⟨entries, there⟩
    rw [node?] at there
    cases located : w.locate path with
    | error failure =>
      rw [located] at there
      cases there
    | ok goal =>
      rw [located] at there
      rw [locate] at located
      split at located
      case isFalse => cases located
      case isTrue usable => exact ⟨usable, ((follow_eq_ok (entryAt?_of_dir there)).mp located).1⟩
  · rintro ⟨usable, leads⟩
    obtain ⟨entries, found⟩ := Node.entryAt?_eq_directory.mp leads.there
    have followed : w.follow path (w.start path) path.steps = .ok (w.place path) :=
      (follow_eq_ok leads.there).mpr ⟨leads, rfl⟩
    refine ⟨entries, ?_⟩
    rw [node?, locate, if_pos usable, followed]
    exact found

/-- Names lead through directories to the directory whose names they are. -/
lemma leads_names {names : List String} (usable : ∀ name ∈ names, isUsableName name)
    (there : w.entryAt? (location ++ names) = some .directory) :
    w.Leads location (names.map .name) := by
  induction names generalizing location with
  | nil => exact leads_nil.mpr (by rwa [List.append_nil] at there)
  | cons name names ih =>
    rw [List.forall_mem_cons] at usable
    have here : w.entryAt? location = some .directory := by
      by_contra other
      rw [entryAt?, Node.entryAt?_below other] at there
      cases there
    refine leads_cons.mpr ⟨here, ?_, ih usable.2 ?_⟩
    · rintro _ ⟨⟩
      exact usable.1
    · rwa [stepFrom, List.append_assoc, List.singleton_append]

lemma foldl_names {names : List String} :
    (names.map Path.Step.name).foldl stepFrom location = location ++ names := by
  induction names generalizing location with
  | nil => rw [List.append_nil]; rfl
  | cons name names ih =>
    rw [List.map_cons, List.foldl_cons, ih, stepFrom, List.append_assoc, List.singleton_append]

end Files.Workspace

namespace Path

/-- Names with a separator behind each of them. -/
def charsOfNames (names : List String) : List Char :=
  names.flatMap fun name => name.toList ++ [separator]

/-- Names with separators between them are the names with a separator behind each, but for the
last. -/
lemma toList_intercalate {names : List String} (full : names ≠ []) :
    ("/".intercalate names).toList ++ [separator] = charsOfNames names := by
  induction names with
  | nil => exact absurd rfl full
  | cons name names ih =>
    cases names with
    | nil => simp [charsOfNames]
    | cons next names =>
      rw [String.intercalate_cons_cons, String.toList_append, String.toList_append,
        List.append_assoc, ih (List.cons_ne_nil _ _)]
      simp [charsOfNames, separator]

lemma IsFileName.full {name : String} (file : IsFileName name) : name.toList ≠ [] := by
  intro empty
  rw [String.toList_eq_nil_iff] at empty
  have step := file.step
  rw [empty] at step
  cases step

/-- A path below the directory with the given names, seen from the root. -/
lemma text_join_root {names : List String} (files : ∀ name ∈ names, IsFileName name) {text : String}
    (relative : text.toList.head? ≠ some separator) :
    ((Path.mk ("/" ++ "/".intercalate names)).join text).text.toList =
      separator :: charsOfNames names ++ text.toList := by
  have full : "/" ++ "/".intercalate names ≠ "" := by
    intro empty
    have chars := congrArg String.toList empty
    simp at chars
  rw [join, if_neg relative, if_neg full]
  -- At the root there is a separator already, below it one is put in between.
  obtain rfl | ⟨above, last, rfl⟩ := List.eq_nil_or_concat' names
  · rw [if_pos (by decide), String.toList_append]
    rfl
  · have some_name : above ++ [last] ≠ [] :=
      List.append_ne_nil_of_right_ne_nil above (List.cons_ne_nil last [])
    have whole := toList_intercalate some_name
    have own := files last (List.mem_append_right _ List.mem_cons_self)
    have joined : ("/".intercalate (above ++ [last])).toList =
        charsOfNames above ++ last.toList := by
      rw [charsOfNames, List.flatMap_append, List.flatMap_singleton, ← List.append_assoc] at whole
      exact List.append_cancel_right whole
    have ends : ("/" ++ "/".intercalate (above ++ [last])).toList.getLast? ≠ some separator := by
      rw [String.toList_append, joined, ← List.append_assoc,
        List.getLast?_append_of_ne_nil _ own.full]
      exact fun same => own.plain (List.mem_of_getLast? same)
    rw [if_neg ends, ← whole, String.toList_append, String.toList_append, String.toList_append,
      List.append_assoc, List.append_assoc, List.cons_append, List.append_assoc]
    rfl

/-- Names with a separator behind each are split into the names. -/
lemma splitOn_charsOfNames {names : List String} (files : ∀ name ∈ names, IsFileName name)
    (cs : List Char) :
    (charsOfNames names ++ cs).splitOn separator =
      names.map String.toList ++ cs.splitOn separator := by
  induction names with
  | nil => rfl
  | cons name names ih =>
    rw [List.forall_mem_cons] at files
    have split : charsOfNames (name :: names) ++ cs =
        name.toList ++ separator :: (charsOfNames names ++ cs) := by
      simp [charsOfNames]
    rw [split, List.splitOn_append_cons_self_of_not_mem files.1.plain, ih files.2]
    rfl

end Path

namespace Files.Workspace

/-- The working directory has a path: its names are those of files. -/
def Placed (w : Workspace) : Prop :=
  ∀ name ∈ w.current, Path.IsFileName name ∧ isUsableName name

variable {w : Workspace} {path file : Path}

/-- The absolute form of a path that is not absolute leads through the working directory. -/
lemma steps_absolute (placed : w.Placed) (relative : path.isAbsolute = false) :
    (w.absolute path).steps = .here :: w.current.map .name ++ path.steps := by
  have files : ∀ name ∈ w.current, Path.IsFileName name := fun name mem => (placed name mem).1
  have first : path.text.toList.head? ≠ some Path.separator := by
    simpa [Path.isAbsolute] using relative
  have names : (w.current.map String.toList).map (Path.Step.ofPart ∘ String.ofList) =
      w.current.map .name := by
    rw [List.map_map]
    refine List.map_congr_left fun name mem => ?_
    rw [Function.comp_apply, Function.comp_apply, String.ofList_toList, (files name mem).step]
  -- In front of the separator at the start stands an empty part, a step that leads nowhere.
  rw [Path.steps, Path.parts, Text.split, absolute, Path.text_join_root files first,
    List.cons_append, List.splitOn_cons_eq_if_modifyHead, if_pos (beq_self_eq_true _),
    Path.splitOn_charsOfNames files]
  rw [List.map_cons, List.map_cons, List.map_map, List.map_append, names]
  rw [Path.steps, Path.parts, Text.split, List.map_map]
  rfl

/-- The absolute form of a relative path is absolute, if the working directory is. -/
lemma isAbsolute_absolute (placed : w.Placed) (relative : path.isAbsolute = false) :
    (w.absolute path).isAbsolute = true := by
  have first : path.text.toList.head? ≠ some Path.separator := by
    simpa [Path.isAbsolute] using relative
  rw [Path.isAbsolute, absolute, Path.text_join_root (fun name mem => (placed name mem).1) first]
  rfl

lemma absolute_of_isAbsolute (own : path.isAbsolute) : w.absolute path = path := by
  rw [absolute, Path.join, if_pos (by simpa [Path.isAbsolute] using own)]

/-- The absolute form of a path ends with its steps. -/
lemma exists_steps_absolute (placed : w.Placed) (path : Path) :
    ∃ front, (w.absolute path).steps = front ++ path.steps := by
  cases own : path.isAbsolute with
  | true => exact ⟨[], by rw [absolute_of_isAbsolute own, List.nil_append]⟩
  | false => exact ⟨_, steps_absolute placed own⟩

/-- The absolute form of a path ends with the name that the path ends with. -/
lemma exists_absolute_split (placed : w.Placed) {steps : List Path.Step} {name : String}
    (split : path.steps = steps ++ [.name name]) :
    ∃ above, (w.absolute path).steps = above ++ [.name name] := by
  obtain ⟨front, whole⟩ := exists_steps_absolute placed path
  exact ⟨front ++ steps, by rw [whole, split, List.append_assoc]⟩

/-- The absolute form of a path leads where the path does. -/
lemma LeadsTo.absolute (placed : w.Placed) (usable : isUsablePath (w.absolute path))
    (leads : w.LeadsTo path) :
    w.LeadsTo (w.absolute path) ∧ w.place (w.absolute path) = w.place path := by
  cases relative : path.isAbsolute with
  | true =>
    rw [absolute_of_isAbsolute relative]
    exact ⟨leads, rfl⟩
  | false =>
    have steps := steps_absolute placed relative
    have own : w.start path = w.current := by
      rw [start, relative, if_neg Bool.false_ne_true]
    have root : w.start (w.absolute path) = [] := by
      rw [start, isAbsolute_absolute placed relative, if_pos rfl]
    obtain ⟨front, name, split, named, through⟩ := leads.steps
    -- The absolute form goes down to the working directory and on from there.
    have names : w.Leads [] (w.current.map .name) :=
      leads_names (fun name mem => (placed name mem).2)
        (by rw [List.nil_append, ← own]; exact through.here)
    have above : w.Leads [] (.here :: w.current.map .name) := leads_here.mpr names
    have ends : (Path.Step.here :: w.current.map .name).foldl stepFrom [] = w.start path := by
      rw [own, List.foldl_cons, foldl_names]
      rfl
    refine ⟨⟨usable, .here :: w.current.map .name ++ front, name, ?_, named, ?_⟩, ?_⟩
    · rw [steps, split, List.append_assoc]
    · rw [root, leads_append, ends]
      exact ⟨above, through⟩
    · rw [place, root, steps, List.foldl_append, ends, place]

/-- The absolute form of a path can be used where it can with an extension more. -/
lemma LeadsTo.isUsablePath_absolute (placed : w.Placed) (leads : w.LeadsTo path) {text : String}
    (longer : file.text = (w.absolute path).withoutEnd.text ++ text) (usable : isUsablePath file) :
    isUsablePath (w.absolute path) := by
  obtain ⟨before, name, split, -, -⟩ := leads.steps
  obtain ⟨above, last⟩ := exists_absolute_split placed split
  rw [Path.withoutEnd_eq last] at longer
  exact isUsablePath_of_append last longer usable

/-- A file is written by a path that leads to an entry of a directory, unless a directory stands
there. -/
lemma LeadsTo.write {content : ByteArray} (leads : w.LeadsTo path)
    (free : w.entryAt? (w.place path) ≠ some .directory) : (w.write path content).1 = .ok () := by
  obtain ⟨front, name, split, named, through⟩ := leads.steps
  have followed : w.follow path (w.start path) front = .ok (front.foldl stepFrom (w.start path)) :=
    (follow_eq_ok through.there).mpr ⟨through, rfl⟩
  obtain ⟨entries, found⟩ := Node.entryAt?_eq_directory.mp through.there
  rw [place_of_split split, entryAt?_child found] at free
  have plain : ¬ (entries.lookup name).any Node.isDir := by
    cases there : entries.lookup name with
    | none => nofun
    | some node =>
      cases node with
      | file => nofun
      | dir =>
        rw [there] at free
        exact absurd rfl free
  have last : path.steps.getLast? = some (.name name) := by rw [split, List.getLast?_concat]
  have above : path.steps.dropLast = front := by rw [split, List.dropLast_concat]
  simp only [Workspace.write, leads.usable, last, above, followed, found, named, plain,
    Bool.not_true, Bool.false_eq_true, if_false]

/-- A file has been written: it stands where its path leads, in the place of a file or of nothing,
and everything else is as it was. -/
structure FileWritten (path : Path) (content : ByteArray) (w after : Workspace) : Prop where
  current : after.current = w.current
  leads : w.LeadsTo path
  free : w.entryAt? (w.place path) ≠ some .directory
  entries : ∀ l, after.entryAt? l =
    if l = w.place path then some (.file content) else w.entryAt? l

/-- A write that succeeds leaves the file with its content and nothing else changed. -/
lemma fileWritten_of_write {content : ByteArray} {after : Workspace}
    (done : w.write path content = (.ok (), after)) : FileWritten path content w after := by
  obtain ⟨leads, free, rfl⟩ := write_eq_ok done
  refine ⟨rfl, leads, free, fun l => ?_⟩
  obtain ⟨front, name, split, -, through⟩ := leads.steps
  rw [place_of_split split] at free ⊢
  exact entryAt?_put through.there free (fun _ _ => rfl) l

namespace FileWritten
variable {content : ByteArray} {after : Workspace}
  (written : FileWritten path content w after)
include written

/-- To write a file makes no directory and removes none. -/
lemma directory_iff {location : Location} :
    after.entryAt? location = some .directory ↔ w.entryAt? location = some .directory := by
  rw [written.entries]
  split
  case isTrue own =>
    rw [own]
    exact ⟨nofun, fun there => absurd there written.free⟩
  case isFalse => rfl

/-- A path leads to a directory after the write exactly when it did before. -/
lemma leadsTo_iff : after.LeadsTo file ↔ w.LeadsTo file :=
  ⟨fun leads => leads.mono written.current.symm fun _ => written.directory_iff.mp,
    fun leads => leads.mono written.current fun _ => written.directory_iff.mpr⟩

/-- What is a file now was one before, or is the one that was written. -/
lemma isFile_iff :
    after.isFile file ↔ w.LeadsTo file ∧ w.place file = w.place path ∨ w.isFile file := by
  rw [Workspace.isFile_iff, Workspace.isFile_iff, written.leadsTo_iff,
    place_congr written.current, written.entries]
  by_cases own : w.place file = w.place path
  · rw [if_pos own]
    constructor
    · exact fun file => .inl ⟨file.1, own⟩
    · rintro (⟨leads, -⟩ | ⟨leads, -⟩) <;> exact ⟨leads, content, rfl⟩
  · rw [if_neg own]
    constructor
    · exact .inr
    · rintro (⟨-, same⟩ | file)
      · exact absurd same own
      · exact file

/-- The file that was written is read by every path that leads to it. -/
lemma read_own (leads : w.LeadsTo file) (own : w.place file = w.place path) :
    after.read file = .ok content := by
  refine (written.leadsTo_iff.mpr leads).read ?_
  rw [place_congr written.current, written.entries, if_pos own]

/-- Any other file is read as before. -/
lemma read_other (isFile : w.isFile file) (other : w.place file ≠ w.place path) :
    after.read file = w.read file := by
  obtain ⟨leads, old, there⟩ := Workspace.isFile_iff.mp isFile
  rw [leads.read there]
  refine (written.leadsTo_iff.mpr leads).read ?_
  rw [place_congr written.current, written.entries, if_neg other, there]

/-- A path that leads somewhere now and did not before leads to the file that was written. -/
lemma leadsTo_of_new (absent : w.node? file = none) (there : (after.node? file).isSome) :
    w.LeadsTo file ∧ w.place file = w.place path := by
  obtain ⟨node, found⟩ := Option.isSome_iff_exists.mp there
  cases node with
  | file content =>
    have isFile : after.isFile file := by
      rw [Workspace.isFile, found]
      rfl
    refine (written.isFile_iff.mp isFile).resolve_right fun before => ?_
    rw [Workspace.isFile, absent] at before
    cases before
  | dir entries =>
    -- The directories are the same as before, so that the path led to this one.
    obtain ⟨usable, leads⟩ := node?_eq_dir.mp ⟨entries, found⟩
    rw [start_congr written.current] at leads
    have before : w.Leads (w.start file) file.steps := leads.mono fun _ => written.directory_iff.mp
    obtain ⟨old, there⟩ := node?_eq_dir.mpr ⟨usable, before⟩
    rw [absent] at there
    cases there

lemma absolute_eq : after.absolute file = w.absolute file := by
  rw [absolute, absolute, written.current]

end FileWritten

end Files.Workspace

end ContentClasses
