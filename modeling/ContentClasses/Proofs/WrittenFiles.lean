import ContentClasses.Output
import ContentClasses.Proofs.Entries

/-!
# Files that are written

What writing the files of a run does to a workspace. Each file stands below the directory of the
output, the last one of its name where a name is repeated, and every other location is as it was
before. Where the directory had to be made, so were the missing ones above it, and nothing else.
-/

namespace ContentClasses

open Files (Location Workspace)
open Files.Workspace (Grown)

namespace Path
variable {p : Path} {name : String}

/-- A name of a file: one step of a path, and a step to an entry. -/
structure IsFileName (name : String) : Prop where
  plain : separator ∉ name.toList
  step : Step.ofPart name = .name name

lemma head?_ne (plain : separator ∉ name.toList) : name.toList.head? ≠ some separator :=
  fun first => plain (List.mem_of_mem_head? first)

/-- A name without separators is a path of one part. -/
lemma parts_of_plain (plain : separator ∉ name.toList) : (Path.mk name).parts = [name] := by
  rw [parts, Text.split, List.splitOn_eq_singleton plain, List.map_singleton, String.ofList_toList]

/-- A separator in a path divides its parts. -/
lemma parts_append {front back : List Char} {text : String}
    (split : text.toList = front ++ separator :: back) :
    (Path.mk text).parts =
      (Path.mk (String.ofList front)).parts ++ (Path.mk (String.ofList back)).parts := by
  rw [parts, parts, parts, Text.split, Text.split, Text.split, split, List.splitOn_append_cons_self,
    List.map_append, String.toList_ofList, String.toList_ofList]

/-- The steps of a name below a directory are those of the directory, but for a separator at its
end, and that of the name. -/
lemma steps_join (plain : separator ∉ name.toList) :
    ∃ steps, (p.join name).steps = steps ++ [Step.ofPart name] ∧
      (p.steps = steps ∨ p.steps = steps ++ [.here]) := by
  have own : (Path.mk (String.ofList name.toList)).parts = [name] := by
    rw [String.ofList_toList, parts_of_plain plain]
  rw [join, if_neg (head?_ne plain)]
  split
  case isTrue empty =>
    refine ⟨[], ?_, .inr ?_⟩
    · rw [steps, parts_of_plain plain]
      rfl
    · obtain ⟨text⟩ := p
      cases empty
      rfl
  case isFalse full =>
    split
    case isTrue last =>
      have ends : p.text.toList = p.text.toList.dropLast ++ [separator] :=
        (List.dropLast_append_getLast? _ last).symm
      refine ⟨(Path.mk (String.ofList p.text.toList.dropLast)).steps, ?_, .inr ?_⟩
      · have joined : (p.text ++ name).toList =
            p.text.toList.dropLast ++ separator :: name.toList := by
          conv => lhs; rw [String.toList_append, ends]
          rw [List.append_assoc, List.singleton_append]
        rw [steps, parts_append joined, own, List.map_append]
        rfl
      · rw [steps, parts_append ends, List.map_append]
        rfl
    case isFalse =>
      refine ⟨p.steps, ?_, .inl rfl⟩
      have joined : (p.text ++ String.singleton separator ++ name).toList =
          p.text.toList ++ separator :: name.toList := by
        rw [String.toList_append, String.toList_append, List.append_assoc]
        rfl
      rw [steps, parts_append joined, own, List.map_append, String.ofList_toList]
      rfl

/-- A name below a directory is seen from where the directory is. -/
lemma isAbsolute_join (plain : separator ∉ name.toList) :
    (p.join name).isAbsolute = p.isAbsolute := by
  have front (rest : String) (full : p.text ≠ "") :
      (p.text ++ rest).toList.head? = p.text.toList.head? := by
    rw [String.toList_append, List.head?_append_of_ne_nil]
    exact mt String.toList_eq_nil_iff.mp full
  rw [join, if_neg (head?_ne plain)]
  split
  case isTrue empty =>
    rw [isAbsolute, isAbsolute, empty]
    simpa using head?_ne plain
  case isFalse full =>
    split
    case isTrue => rw [isAbsolute, isAbsolute, front name full]
    case isFalse =>
      rw [isAbsolute, isAbsolute, String.append_assoc, front _ full]

end Path

namespace Files.Workspace
variable {w after : Workspace} {p : Path} {name : String} {location : Location}
  {steps : List Path.Step}

/-- A step that stays where it is leads to the same directory. -/
lemma Leads.append_here (leads : w.Leads location steps) : w.Leads location (steps ++ [.here]) where
  directories l mem := by
    rw [List.scanl_append, List.scanl_cons, List.tail_cons] at mem
    obtain before | last := List.mem_append.mp mem
    · exact leads.directories l before
    · -- The step stays at the location to which the others lead.
      rw [List.mem_singleton.mp last]
      exact leads.there
  usable name mem := by
    obtain before | last := List.mem_append.mp mem
    · exact leads.usable name before
    · cases List.mem_singleton.mp last

/-- To join a plain name to a path does not move its start. -/
lemma start_join (plain : Path.separator ∉ name.toList) : w.start (p.join name) = w.start p := by
  rw [start, start, Path.isAbsolute_join plain]

/-- A file below a directory stands there under its name. -/
lemma place_join (file : Path.IsFileName name) :
    w.place (p.join name) = w.place p ++ [name] := by
  obtain ⟨steps, joined, own⟩ := Path.steps_join (p := p) file.plain
  rw [file.step] at joined
  rw [place_of_split joined, start_join file.plain, place]
  obtain same | here := own
  · rw [same]
  · rw [here, List.foldl_append]
    rfl

/-- The path to a file below a directory goes through all directories on the way to this one. -/
lemma LeadsTo.directory (file : Path.IsFileName name) (leads : w.LeadsTo (p.join name)) :
    w.Leads (w.start p) p.steps := by
  obtain ⟨steps, joined, own⟩ := Path.steps_join (p := p) file.plain
  obtain ⟨steps', last, split, -, through⟩ := leads.steps
  rw [joined] at split
  obtain ⟨rfl, -⟩ := List.append_inj' split rfl
  rw [start_join file.plain] at through
  obtain same | here := own
  · rw [same]
    exact through
  · rw [here]
    exact through.append_here

end Files.Workspace

namespace SourceFile

/-- The last of some files with a name. -/
def lastNamed? (files : List SourceFile) (name : String) : Option SourceFile :=
  files.findRev? (·.name == name)

variable {file last : SourceFile} {files : List SourceFile} {name : String}

/-- A later file of a name counts before an earlier one. -/
lemma lastNamed?_cons :
    lastNamed? (file :: files) name =
      (lastNamed? files name).or (if file.name = name then some file else none) := by
  rw [lastNamed?, lastNamed?, List.findRev?_eq_find?_reverse, List.findRev?_eq_find?_reverse,
    List.reverse_cons, List.find?_append, List.find?_singleton]
  simp only [beq_iff_eq]

lemma lastNamed?_eq_none : lastNamed? files name = none ↔ ∀ f ∈ files, f.name ≠ name := by
  rw [lastNamed?, List.findRev?_eq_find?_reverse, List.find?_eq_none]
  simp only [List.mem_reverse, beq_iff_eq]

/-- The last file with a name stands behind the first file, or is the first where no other has its
name. -/
lemma lastNamed?_cons_eq_some :
    lastNamed? (file :: files) name = some last ↔
      lastNamed? files name = some last ∨
        (∀ f ∈ files, f.name ≠ name) ∧ file.name = name ∧ file = last := by
  rw [lastNamed?_cons, Option.or_eq_some_iff, lastNamed?_eq_none, Option.ite_none_right_eq_some,
    Option.some_inj]

lemma exists_lastNamed (mem : file ∈ files) : ∃ last, lastNamed? files file.name = some last := by
  cases found : lastNamed? files file.name with
  | some last => exact ⟨last, rfl⟩
  | none => exact absurd rfl (lastNamed?_eq_none.mp found file mem)

end SourceFile

namespace Output
variable {output : Output} {files : List SourceFile} {file : SourceFile}
  {w between after : Workspace}

/-- Files have been written into the directory of an output: the last one of each name stands there,
and everything else is as it was. -/
structure Wrote (output : Output) (files : List SourceFile) (w after : Workspace) : Prop where
  current : after.current = w.current
  directories : ∀ l, w.entryAt? l = some .directory → after.entryAt? l = some .directory
  written : ∀ name last, SourceFile.lastNamed? files name = some last →
    after.entryAt? (w.place output.directory ++ [name]) = some (.file last.content.toUTF8)
  others : ∀ l, (∀ f ∈ files, l ≠ w.place output.directory ++ [f.name]) →
    after.entryAt? l = w.entryAt? l
  paths : ∀ f ∈ files, after.LeadsTo (output.pathOf f)

/-- Writing one file changes what stands under its name. -/
lemma entryAt?_of_write (plain : Path.IsFileName file.name)
    (h : w.write (output.pathOf file) file.content.toUTF8 = (.ok (), after)) (l : Location) :
    after.entryAt? l =
      if l = w.place output.directory ++ [file.name] then some (.file file.content.toUTF8)
      else w.entryAt? l := by
  obtain ⟨leads, free, rfl⟩ := Workspace.write_eq_ok h
  have place : w.place (output.pathOf file) = w.place output.directory ++ [file.name] :=
    Workspace.place_join plain
  rw [place] at free ⊢
  exact Workspace.entryAt?_put (leads.directory plain).there free (fun _ _ => rfl) l

namespace Wrote

lemma nil : Wrote output [] w w where
  current := rfl
  directories _ there := there
  written := nofun
  others _ _ := rfl
  paths := nofun

/-- One file is written in front of others: it stays where none of them has its name. -/
lemma cons (plain : Path.IsFileName file.name)
    (first : w.write (output.pathOf file) file.content.toUTF8 = (.ok (), between))
    (rest : Wrote output files between after) : Wrote output (file :: files) w after := by
  obtain ⟨leads, free, put⟩ := Workspace.write_eq_ok first
  have current : between.current = w.current := by rw [put, Workspace.put_current]
  have place : between.place output.directory = w.place output.directory :=
    Workspace.place_congr current
  have entries := entryAt?_of_write plain first
  have kept : ∀ l, w.entryAt? l = some .directory → between.entryAt? l = some .directory := by
    intro l there
    rw [entries, if_neg, there]
    rintro rfl
    apply free
    rw [pathOf, Workspace.place_join plain]
    exact there
  constructor
  case current => exact rest.current.trans current
  case directories => exact fun l there => rest.directories l (kept l there)
  case written =>
    intro name last named
    obtain later | ⟨unnamed, rfl, rfl⟩ := SourceFile.lastNamed?_cons_eq_some.mp named
    · rw [← place]
      exact rest.written name last later
    · -- No file behind the first has its name, so that it stays as it was written.
      rw [rest.others, entries, if_pos rfl]
      intro f mem equal
      rw [place] at equal
      exact unnamed f mem (List.singleton_inj.mp (List.append_cancel_left equal)).symm
  case others =>
    intro l different
    rw [rest.others, entries, if_neg (different file List.mem_cons_self)]
    intro f mem
    rw [place]
    exact different f (List.mem_cons_of_mem _ mem)
  case paths =>
    intro f mem
    obtain rfl | mem := List.mem_cons.mp mem
    · exact leads.mono (rest.current.trans current) fun l there => rest.directories l (kept l there)
    · exact rest.paths f mem

end Wrote

/-- The files are written one after the other, up to the first that fails. -/
lemma writeFiles_cons :
    output.writeFiles (file :: files) w =
      match w.write (output.pathOf file) file.content.toUTF8 with
      | (.ok _, between) => output.writeFiles files between
      | (.error failure, between) => (.error (.file failure), between) := by
  exact rfl

/-- Writing the files of an output one after another, where it succeeds. -/
lemma wrote_of_writeFiles (plain : ∀ f ∈ files, Path.IsFileName f.name)
    (h : output.writeFiles files w = (.ok (), after)) : Wrote output files w after := by
  induction files generalizing w with
  | nil =>
    cases h
    exact .nil
  | cons file files ih =>
    rw [List.forall_mem_cons] at plain
    rw [writeFiles_cons] at h
    split at h
    case h_1 between first => exact .cons plain.1 first (ih plain.2 h)
    case h_2 => cases h

/-- The files of an output stand in its directory: the last one of each name is found under its
path. The directory and those above it are there, made where they were missing, and everything else
is as it was. -/
structure Filled (output : Output) (files : List SourceFile) (w after : Workspace) : Prop where
  current : after.current = w.current
  directories : ∀ l ∈ w.trail output.directory,
    (w.entryAt? l = none ∨ w.entryAt? l = some .directory) ∧ after.entryAt? l = some .directory
  written : ∀ f ∈ files, ∃ last, SourceFile.lastNamed? files f.name = some last ∧
    after.locate (output.pathOf f) = .ok (w.place output.directory ++ [f.name]) ∧
    after.read (output.pathOf f) = .ok last.content.toUTF8
  others : ∀ l, l ∉ w.trail output.directory →
    (∀ f ∈ files, l ≠ w.place output.directory ++ [f.name]) → after.entryAt? l = w.entryAt? l

namespace Wrote

/-- What is a directory after the writing was one before. -/
lemma directory_of_after (wrote : Wrote output files w after) {l : Location}
    (there : after.entryAt? l = some .directory) : w.entryAt? l = some .directory := by
  rw [← wrote.others l, there]
  rintro f mem rfl
  obtain ⟨last, named⟩ := SourceFile.exists_lastNamed mem
  rw [wrote.written f.name last named] at there
  cases there

/-- A file that was written is found under its path. -/
lemma found (plain : ∀ f ∈ files, Path.IsFileName f.name) (wrote : Wrote output files w after)
    (mem : file ∈ files) :
    ∃ last, SourceFile.lastNamed? files file.name = some last ∧
      after.locate (output.pathOf file) = .ok (w.place output.directory ++ [file.name]) ∧
      after.read (output.pathOf file) = .ok last.content.toUTF8 := by
  obtain ⟨last, named⟩ := SourceFile.exists_lastNamed mem
  have stands := wrote.written file.name last named
  have leads := wrote.paths file mem
  have place : after.place (output.pathOf file) = w.place output.directory ++ [file.name] := by
    rw [pathOf, Workspace.place_join (plain file mem), Workspace.place_congr wrote.current]
  rw [← place] at stands ⊢
  exact ⟨last, named, leads.locate (by rw [stands]; rfl), leads.read stands⟩

/-- Files that are written where the missing directories have been made. -/
lemma filled (plain : ∀ f ∈ files, Path.IsFileName f.name) (full : files ≠ [])
    (grown : Grown w between (w.trail output.directory))
    (wrote : Wrote output files between after) : Filled output files w after := by
  have place : between.place output.directory = w.place output.directory :=
    Workspace.place_congr grown.current
  have current : after.current = w.current := wrote.current.trans grown.current
  constructor
  case current => exact current
  case directories =>
    -- The path of any file shows that the whole way to the directory is there.
    obtain ⟨file, mem⟩ := List.exists_mem_of_ne_nil files full
    have way := (wrote.paths file mem).directory (plain file mem)
    rw [Workspace.start_congr current] at way
    intro l on
    have there := way.directories l on
    have made := wrote.directory_of_after there
    obtain same | ⟨-, absent, -⟩ := grown.entries l
    · rw [same] at made
      exact ⟨.inr made, there⟩
    · exact ⟨.inl absent, there⟩
  case written =>
    intro f mem
    rw [← place]
    exact wrote.found plain mem
  case others =>
    intro l off different
    rw [← place] at different
    rw [wrote.others l different]
    obtain same | ⟨on, -, -⟩ := grown.entries l
    · exact same
    · exact absurd on off

end Wrote

/-- A dry run tells the paths and leaves the tree alone. -/
lemma writeAll_of_dryRun (dry : output.dryRun) :
    output.writeAll files w = (.ok (files.map output.pathOf), w) := by
  rw [writeAll, if_pos dry]

/-- An output that succeeds answers the paths of its files, and has made the directory and written
the files if it is no dry run. -/
lemma writeAll_eq_ok {paths : List Path} (h : output.writeAll files w = (.ok paths, after)) :
    paths = files.map output.pathOf ∧
      (output.dryRun = false → ∃ between, w.makeDirs output.directory = (.ok (), between) ∧
        output.writeFiles files between = (.ok (), after)) := by
  rw [writeAll] at h
  split at h
  case isTrue dry =>
    cases h
    refine ⟨rfl, fun live => ?_⟩
    rw [live] at dry
    cases dry
  case isFalse =>
    split at h
    case h_1 => cases h
    case h_2 between made =>
      cases ran : output.writeFiles files between with
      | mk result final =>
        rw [ran] at h
        cases result with
        | error e => cases h
        | ok =>
          cases h
          exact ⟨rfl, fun _ => ⟨between, made, ran⟩⟩

/-- What there is after an output that is no dry run has written its files. -/
lemma filled_of_writeAll {paths : List Path} (plain : ∀ f ∈ files, Path.IsFileName f.name)
    (full : files ≠ []) (live : output.dryRun = false)
    (h : output.writeAll files w = (.ok paths, after)) : Filled output files w after := by
  obtain ⟨between, made, ran⟩ := (writeAll_eq_ok h).2 live
  have grown := Workspace.makeDirs_grown w output.directory
  rw [made] at grown
  exact (wrote_of_writeFiles plain ran).filled plain full grown

end Output

end ContentClasses
