import ContentClasses.Proofs.FilePaths
import ContentClasses.Proofs.SavedDocuments
import ContentClasses.Proofs.SchemaDirectories
import ContentClasses.Proofs.SettingLayers

/-!
# Configurations that are saved and loaded

A configuration that has been saved is loaded again, whatever the layers below say, where its file
can be found: `saved_loads_iff`. The file gives every field a value, and saving it leaves the
settings of every other file as they were.
-/

namespace ContentClasses

open Files (Workspace)
open Files.Workspace (FileWritten)

/-- The last name of a path has something in front of the extension of TOML. -/
def Path.HasTomlName (path : Path) : Prop :=
  ∃ front c, c ≠ separator ∧ path.text.toList = front ++ c :: ".toml".toList

namespace Path
variable {path file : Path} {steps : List Step} {name : String}

/-- A file with such a name has the extension of TOML. -/
lemma HasTomlName.extension? (named : path.HasTomlName)
    (split : path.steps = steps ++ [.name name]) :
    extension? name = some "toml" := by
  obtain ⟨front, c, other, text⟩ := named
  have plain : separator ∉ c :: ".toml".toList := by
    rw [List.mem_cons, not_or]
    exact ⟨other.symm, by decide⟩
  obtain ⟨stem, chars⟩ := exists_stem plain text split
  refine extension?_eq_some_iff.mpr ⟨by decide, String.ofList (stem ++ [c]), by simp, ?_⟩
  rw [← String.toList_inj, chars]
  simp

/-- Where the text of a path ends in the extension, the last name has something in front of it or is
the extension with its dot. -/
lemma hasTomlName_or (ends : ∃ front, path.text.toList = front ++ ".toml".toList)
    (split : path.steps = steps ++ [.name name]) : path.HasTomlName ∨ name = ".toml" := by
  obtain ⟨front, text⟩ := ends
  obtain ⟨parts, last, -⟩ := exists_parts split
  have own : path.parts.getLast? = some name := by rw [last, List.getLast?_concat]
  have plain : separator ∉ ".toml".toList := by decide
  obtain rfl | ⟨front, c, rfl⟩ := List.eq_nil_or_concat' front
  · right
    have whole : path = ⟨".toml"⟩ := congrArg Path.mk (String.toList_inj.mp text)
    rw [whole, parts_of_plain plain] at own
    exact (Option.some.inj own).symm
  · by_cases same : c = separator
    · right
      rw [same, List.append_assoc, List.singleton_append] at text
      have both : path.parts = (Path.mk (String.ofList front)).parts ++ [".toml"] := by
        rw [← parts_of_plain plain]
        exact parts_append text
      rw [both, List.getLast?_concat] at own
      exact (Option.some.inj own).symm
    · refine .inl ⟨front, c, same, ?_⟩
      rw [text, List.append_assoc, List.singleton_append]

end Path

namespace Setting
variable {format other : Format} {extension : String}

/-- No extension belongs to two formats. -/
lemma Format.eq_of_extension (own : extension ∈ format.extensions)
    (again : extension ∈ other.extensions) : format = other := by
  cases format <;> cases other <;> simp_all [extensions]

/-- An extension is made of letters and digits. -/
lemma Format.notMem {c : Char} (own : extension ∈ format.extensions) (other : ¬ c.isAlphanum) :
    c ∉ extension.toList := by
  have each : ∀ extension ∈ format.extensions, extension.toList.all Char.isAlphanum := by
    cases format <;> simp [extensions]
  exact fun mem => other (List.all_eq_true.mp (each extension own) c mem)

/-- In whatever order the formats are tried, the first with an extension is the only one. -/
lemma Formats.find?_order [Formats] :
    Formats.order.find? (·.extensions.contains extension) = some format ↔
      extension ∈ format.extensions := by
  have has {format : Format}
      (found : Formats.order.find? (·.extensions.contains extension) = some format) :
      extension ∈ format.extensions := by
    have own := List.find?_some found
    exact List.contains_iff_mem.mp own
  refine ⟨has, fun own => ?_⟩
  have mem : format ∈ Formats.order := Formats.complete.mem_iff.mpr (by cases format <;> decide)
  cases found : Formats.order.find? (·.extensions.contains extension) with
  | none => exact absurd (List.contains_iff_mem.mpr own) (List.find?_eq_none.mp found format mem)
  | some other => rw [Format.eq_of_extension own (has found)]

end Setting

namespace Settings
open Setting (Formats)
variable {w after : Workspace} {path p file : Path} {content : ByteArray}
  {format : Setting.Format} {settings : Settings}

section Search
variable [Formats]

/-- A path with an extension more ends with a dot and this extension. -/
lemma text_of_extended {base : Path} (mem : (file, format) ∈ extended base) :
    ∃ extension ∈ format.extensions,
      file.text = base.withoutEnd.text ++ "." ++ extension := by
  obtain ⟨other, -, mem⟩ := List.mem_flatMap.mp mem
  obtain ⟨extension, own, given⟩ := List.mem_filterMap.mp mem
  obtain ⟨longer, made, same⟩ := Option.map_eq_some_iff.mp given
  cases same
  obtain ⟨name, -, rfl⟩ := Option.map_eq_some_iff.mp made
  exact ⟨extension, own, rfl⟩

/-- What the search for a file of settings finds is a file, by the very path or by a path with the
extension of its format. -/
lemma find_eq_ok :
    find w p = .ok (file, format) ↔
      w.isFile (w.absolute p) ∧ file = w.absolute p ∧
          (file.fileName?.bind Path.extension?).getD "" ∈ format.extensions ∨
        ¬ w.isFile (w.absolute p) ∧
          (extended (w.absolute p)).find? (w.isFile ·.1) = some (file, format) := by
  rw [← Formats.find?_order]
  by_cases there : w.isFile (w.absolute p)
  · simp only [find, there, if_true, not_true_eq_false, false_and, or_false, true_and]
    constructor
    · intro found
      split at found
      case h_2 => cases found
      case h_1 known =>
        cases found
        exact ⟨rfl, known⟩
    · rintro ⟨rfl, known⟩
      rw [known]
  · simp only [find, there, if_false, false_and, false_or, not_false_eq_true, true_and,
      Bool.false_eq_true]
    cases (extended (w.absolute p)).find? (w.isFile ·.1) <;> simp

section Written
variable (written : FileWritten path content w after)
include written

/-- What is found after a file has been written is that file, or was found before. -/
lemma find_after (found : find after p = .ok (file, format)) :
    w.LeadsTo file ∧ w.place file = w.place path ∨
      w.isFile file ∧ w.place file ≠ w.place path ∧ find w p = .ok (file, format) := by
  by_cases own : w.LeadsTo file ∧ w.place file = w.place path
  · exact .inl own
  · right
    have kept {other : Path} (isFile : w.isFile other) : after.isFile other :=
      written.isFile_iff.mpr (.inr isFile)
    -- What is a file is one in both trees, but for the file that was written.
    have old (isFile : after.isFile file) : w.isFile file :=
      (written.isFile_iff.mp isFile).resolve_left own
    have elsewhere (isFile : w.isFile file) : w.place file ≠ w.place path :=
      fun same => own ⟨(Workspace.isFile_iff.mp isFile).1, same⟩
    obtain ⟨there, rfl, known⟩ | ⟨missing, first⟩ := find_eq_ok.mp found
    · rw [written.absolute_eq] at there old elsewhere known ⊢
      exact ⟨old there, elsewhere (old there), find_eq_ok.mpr (.inl ⟨old there, rfl, known⟩)⟩
    · rw [written.absolute_eq] at missing first
      obtain ⟨isFile, before, behind, split, others⟩ := List.find?_eq_some_iff_append.mp first
      refine ⟨old isFile, elsewhere (old isFile), find_eq_ok.mpr (.inr ⟨mt kept missing, ?_⟩)⟩
      refine List.find?_eq_some_iff_append.mpr
        ⟨old isFile, before, behind, split, fun other mem => ?_⟩
      have none := others other mem
      rw [Bool.not_eq_true', Bool.eq_false_iff] at none ⊢
      exact mt kept none

/-- The file that was written is in TOML if its path says so. -/
lemma format_of_own (named : path.HasTomlName) (found : find after p = .ok (file, format))
    (leads : w.LeadsTo file) (own : w.place file = w.place path) : format = .toml := by
  obtain ⟨steps, name, split, -, -⟩ := leads.steps
  obtain ⟨others, last, own_split, -, -⟩ := written.leads.steps
  have same : name = last := by
    rw [Workspace.place_of_split split, Workspace.place_of_split own_split] at own
    exact List.singleton_inj.mp (List.append_inj' own rfl).2
  subst same
  have extension := named.extension? own_split
  obtain ⟨-, -, known⟩ | ⟨-, first⟩ := find_eq_ok.mp found
  · rw [Path.fileName?_eq split, Option.bind_some, extension] at known
    exact Setting.Format.eq_of_extension known (List.mem_singleton_self _)
  · -- The name ends with both extensions, and is cut at its last dot by either.
    obtain ⟨other, known, text⟩ := text_of_extended (List.mem_of_find?_eq_some first)
    have plain : '.' ∉ other.toList := Setting.Format.notMem known (by decide)
    have behind : Path.separator ∉ '.' :: other.toList :=
      List.not_mem_cons_of_ne_of_not_mem (by decide) (Setting.Format.notMem known (by decide))
    have whole : file.text.toList =
        (after.absolute p).withoutEnd.text.toList ++ '.' :: other.toList := by simp [text]
    obtain ⟨stem, chars⟩ := Path.exists_stem behind whole split
    obtain ⟨-, front, -, rfl⟩ := Path.extension?_eq_some_iff.mp extension
    rw [String.toList_append, String.toList_append, List.append_assoc] at chars
    obtain ⟨-, same⟩ := (append_last_inj (by decide) plain).mp chars
    rw [← String.toList_inj.mp same] at known
    exact Setting.Format.eq_of_extension known (List.mem_singleton_self _)

/-- A path to the file that was written finds a file only by its absolute form. -/
lemma find_direct (placed : w.Placed) (leads : w.LeadsTo p) (own : w.place p = w.place path)
    (found : find after p = .ok (file, format)) :
    file = w.absolute p ∧ Workspace.isUsablePath (w.absolute p) ∧
      (file.fileName?.bind Path.extension?).getD "" ∈ format.extensions := by
  obtain ⟨there, rfl, known⟩ | ⟨missing, first⟩ := find_eq_ok.mp found
  · rw [written.absolute_eq] at there known ⊢
    exact ⟨rfl, (Workspace.isFile_iff.mp there).1.usable, known⟩
  · -- The absolute form could be used, as it can with an extension more, and would be found.
    exfalso
    obtain ⟨extension, -, text⟩ := text_of_extended (List.mem_of_find?_eq_some first)
    have isFile := List.find?_some first
    rw [written.absolute_eq] at missing text
    rw [String.append_assoc] at text
    have longer := (Workspace.isFile_iff.mp isFile).1.usable
    have usable := leads.isUsablePath_absolute placed text longer
    obtain ⟨absolute, same⟩ := leads.absolute placed usable
    exact missing (written.isFile_iff.mpr (.inl ⟨absolute, same.trans own⟩))

end Written

/-- An optional file counts where it is found and its text can be read. -/
lemma readOptional_eq (w : Workspace) (p : Path) :
    readOptional w p =
      match find w p with
      | .error _ => .ok []
      | .ok (file, format) =>
        match textOf w file with
        | .error _ => .ok []
        | .ok text => ofText file format text := by
  delta readOptional
  rfl

section Saved
variable {text : String} (written : FileWritten path text.toUTF8 w after)
  (named : path.HasTomlName) (wellFormed : Toml.settings? text = some settings)
include written

omit [Formats] in
/-- The text that has been written is the text of the file. -/
lemma textOf_own (leads : w.LeadsTo file) (own : w.place file = w.place path) :
    textOf after file = .ok text := by
  rw [textOf, written.read_own leads own]
  simp only [Except.toOption, Option.bind_some, Text.fromUTF8?_toUTF8]

include named wellFormed

/-- An optional file that leads to the saved one gives its settings. -/
lemma readOptional_of_own (found : find after p = .ok (file, format)) (leads : w.LeadsTo file)
    (own : w.place file = w.place path) : readOptional after p = .ok settings := by
  obtain rfl := format_of_own written named found leads own
  rw [readOptional_eq, found]
  dsimp only
  rw [textOf_own written leads own]
  dsimp only
  rw [ofText, Setting.Format.settings?, wellFormed]

/-- Where a file with settings has been written, what gave settings before gives some still. -/
lemma readOptional_after (before : ∃ old, readOptional w p = .ok old) :
    ∃ new, readOptional after p = .ok new := by
  cases search : find after p with
  | error failure =>
    -- A file that may be missing gives no settings where none is found.
    exact ⟨[], by rw [readOptional_eq, search]⟩
  | ok found =>
    obtain ⟨file, format⟩ := found
    obtain ⟨leads, own⟩ | ⟨isFile, other, found_before⟩ := find_after written search
    · exact ⟨settings, readOptional_of_own written named wellFormed search leads own⟩
    · have same : textOf after file = textOf w file := by
        rw [textOf, textOf, written.read_other isFile other]
      rw [readOptional_eq, search]
      rw [readOptional_eq, found_before] at before
      dsimp only
      rw [same]
      exact before

/-- A path to the file that was written gives settings, or finds nothing. -/
lemma readOptional_new (placed : w.Placed) (leads : w.LeadsTo p)
    (own : w.place p = w.place path) : ∃ new, readOptional after p = .ok new := by
  cases search : find after p with
  | error failure => exact ⟨[], by rw [readOptional_eq, search]⟩
  | ok found =>
    obtain ⟨file, format⟩ := found
    obtain ⟨rfl, usable, -⟩ := find_direct written placed leads own search
    obtain ⟨absolute, same⟩ := leads.absolute placed usable
    exact ⟨settings,
      readOptional_of_own written named wellFormed search absolute (same.trans own)⟩

/-- The file that was written is found by its path and gives its settings. -/
lemma readRequired_after (placed : w.Placed)
    (usable : Workspace.isUsablePath (w.absolute path)) :
    readRequired after path = .ok settings := by
  obtain ⟨leads, own⟩ := written.leads.absolute placed usable
  obtain ⟨before, name, split, -, -⟩ := written.leads.steps
  obtain ⟨above, last⟩ := Workspace.exists_absolute_split placed split
  have found : find after path = .ok (w.absolute path, .toml) := by
    refine find_eq_ok.mpr (.inl ⟨?_, ?_, ?_⟩)
    · rw [written.absolute_eq, written.isFile_iff]
      exact .inl ⟨leads, own⟩
    · rw [written.absolute_eq]
    · rw [Path.fileName?_eq last, Option.bind_some, named.extension? split]
      exact List.mem_singleton_self _
  refine bind_eq_ok.mpr ⟨_, found, bind_eq_ok.mpr ⟨text, textOf_own written leads own, ?_⟩⟩
  rw [ofText, Setting.Format.settings?, wellFormed]

end Saved

/-- A file that was written is found by its path only where its name has something in front of the
extension and the absolute form of the path can be used. -/
lemma find_written (written : FileWritten path content w after) (placed : w.Placed)
    (ends : ∃ front, path.text.toList = front ++ ".toml".toList)
    (found : find after path = .ok (file, format)) :
    path.HasTomlName ∧ Workspace.isUsablePath (w.absolute path) := by
  obtain ⟨before, name, split, -, -⟩ := written.leads.steps
  obtain ⟨above, last⟩ := Workspace.exists_absolute_split placed split
  obtain ⟨rfl, usable, known⟩ := find_direct written placed written.leads rfl found
  refine ⟨(Path.hasTomlName_or ends split).resolve_right ?_, usable⟩
  rintro rfl
  rw [Path.fileName?_eq last] at known
  exact absurd known (by cases format <;> decide)

end Search

/-- A setting among others counts, whatever was set before, where all keys are the names of distinct
fields and no value is a table. -/
lemma after_of_mem {settings : Settings} {setting : String × Setting} {value? : Option Setting}
    (own : ∀ s ∈ settings, Setting.stepsOfKey s.1 = [.name s.1] ∧ ∀ entries, s.2 ≠ .table entries)
    (distinct : (settings.map Prod.fst).Nodup) (mem : setting ∈ settings) :
    settings.after setting.1 value? = some setting.2 := by
  induction settings generalizing value? with
  | nil => cases mem
  | cons first settings ih =>
    rw [List.forall_mem_cons] at own
    rw [List.map_cons, List.nodup_cons] at distinct
    rw [after_cons]
    obtain rfl | later := List.mem_cons.mp mem
    · obtain ⟨key, value⟩ := setting
      rw [Setting.after_own own.1.1 own.1.2, after_others]
      intro other there same
      rw [Setting.fieldOfKey, (own.2 other there).1] at same
      exact distinct.1 (List.mem_map.mpr ⟨other, there, Option.some.inj same⟩)
    · exact ih own.2 distinct.2 later

end Settings

namespace Config
variable {config : Config} {w after : Workspace} {path : Path} {environment : Environment}

/-- What is saved counts before all layers below it. -/
lemma lookup_saved {lower : List Settings} {setting : String × Setting}
    (mem : setting ∈ config.savedSettings) :
    (merged (lower ++ [config.savedSettings, []])).lookup setting.1 = some setting.2 := by
  have distinct : (config.savedSettings.map Prod.fst).Nodup := by
    simp only [savedSettings, List.map_cons, List.map_nil]
    decide
  have own : ∀ s ∈ config.savedSettings,
      Setting.stepsOfKey s.1 = [.name s.1] ∧ ∀ entries, s.2 ≠ .table entries := by
    simp only [savedSettings, List.forall_mem_cons]
    refine ⟨?_, ?_, ?_, ?_, ?_, ?_, ?_, ?_, ?_, fun _ mem => absurd mem List.not_mem_nil⟩ <;>
      exact ⟨by decide, fun _ same => by cases same⟩
  have highest : [config.savedSettings, []].flatten = config.savedSettings := by simp
  rw [lookup_merged, List.flatten_append, Settings.after_append, highest,
    Settings.after_of_mem own distinct mem]

/-- The settings of a configuration give it, whatever the settings below them say. -/
lemma converted_saved (config : Config) (lower : List Settings) :
    Converted (merged (lower ++ [config.savedSettings, []])) config where
  texts setting := by
    have found : (setting.key, Setting.text (setting.get config)) ∈ config.savedSettings := by
      cases setting <;> simp [savedSettings, TextSetting.key, TextSetting.get]
    exact fieldOf_of_lookup (lookup_saved found) rfl
  switches setting := by
    have found : (setting.key, Setting.bool (setting.get config)) ∈ config.savedSettings := by
      cases setting <;> simp [savedSettings, SwitchSetting.key, SwitchSetting.get]
    exact fieldOf_of_lookup (lookup_saved found) rfl
  structuredModel := by
    have found : ("structured_model", Setting.list (config.structuredModel.map .text)) ∈
        config.savedSettings := by
      simp [savedSettings]
    exact fieldOf_of_lookup (lookup_saved found) (Setting.toTexts?_texts _)

/-- To save a configuration writes its document and changes no other file. -/
lemma fileWritten_of_save (saved : config.save w path = (.ok (), after)) :
    FileWritten path config.document.toUTF8 w after := by
  refine Workspace.fileWritten_of_write ?_
  rw [save] at saved
  cases done : w.write path config.document.toUTF8 with
  | mk result between =>
    rw [done] at saved
    cases result with
    | error failure => cases saved
    | ok =>
      cases saved
      rfl

/-- What is loaded by the path of a written file in TOML is found by it. -/
lemma loads_path [Setting.Formats] {content : ByteArray} {other : Config} (placed : w.Placed)
    (ends : ∃ front, path.text.toList = front ++ ".toml".toList)
    (written : FileWritten path content w after)
    (loaded : load after environment (some path) = .ok other) :
    path.HasTomlName ∧ Workspace.isUsablePath (w.absolute path) := by
  obtain ⟨layers, layers_read, -⟩ := load_eq_ok.mp loaded
  obtain ⟨files, user, asked, -, -, asked_read, -⟩ := layers_eq_ok.mp layers_read
  obtain ⟨⟨file, format⟩, found, -⟩ := bind_eq_ok.mp asked_read
  exact Settings.find_written written placed ends found

/-- The file of the user gives settings still, also where it is the file that was written. -/
lemma exists_userLayer [Setting.Formats]
    (written : FileWritten path config.document.toUTF8 w after)
    (named : path.HasTomlName) (placed : w.Placed)
    (before : ∃ user, userLayer w environment = .ok user) :
    ∃ user, userLayer after environment = .ok user := by
  have document := config.settings?_document
  rw [userLayer]
  split
  case h_2 => exact ⟨[], rfl⟩
  case h_1 file there =>
    obtain ⟨own, exists_after⟩ := Option.filter_eq_some_iff.mp there
    cases found : w.node? file with
    | none =>
      obtain ⟨leads, same⟩ := written.leadsTo_of_new found exists_after
      exact Settings.readOptional_new written named document placed leads same
    | some node =>
      have same : userLayer w environment = Settings.readOptional w file := by
        rw [userLayer, own, Option.filter_some, if_pos (by rw [found]; rfl)]
      rw [same] at before
      exact Settings.readOptional_after written named document before

/-- A written configuration is the layer above those of the other files, which are there still. -/
lemma exists_layers [Setting.Formats]
    (written : FileWritten path config.document.toUTF8 w after)
    (named : path.HasTomlName) (placed : w.Placed)
    (usable : Workspace.isUsablePath (w.absolute path))
    (wellFormed : ∃ below, layers w environment none = .ok below) :
    ∃ lower, layers after environment (some path) =
      .ok (lower ++ [config.savedSettings, environment.settings]) := by
  obtain ⟨below, read⟩ := wellFormed
  obtain ⟨files, user, -, files_read, user_read, -, -⟩ := layers_eq_ok.mp read
  have document := config.settings?_document
  obtain ⟨new_files, new_files_read⟩ :
      ∃ new, defaultFiles.mapM (Settings.readOptional after) = .ok new := by
    refine mapM_of_ok fun file mem => Settings.readOptional_after written named document ?_
    exact exists_of_forall₂ (mapM_eq_ok.mp files_read) file mem
  obtain ⟨new_user, new_user_read⟩ := exists_userLayer written named placed ⟨user, user_read⟩
  have asked : askedLayer after (some path) = .ok config.savedSettings :=
    Settings.readRequired_after written named document placed usable
  exact ⟨new_files ++ [new_user], layers_eq_ok.mpr
    ⟨new_files, new_user, _, new_files_read, new_user_read, asked, (List.append_cons ..).symm⟩⟩

section Dots
variable (config : Config) {n : Nat}

/-- The path of a file with dots in front of its name. -/
def dotted (n : Nat) : Path :=
  ⟨String.join (List.replicate n "./") ++ "ab.toml"⟩

/-- An empty tree with its top as the working directory. -/
def emptyWorkspace : Workspace :=
  ⟨.emptyDir, []⟩

/-- The long path can be used as it stands, as long as it is short enough. -/
lemma isUsablePath_dotted (short : 2 * n + 7 ≤ 4095) : Workspace.isUsablePath (dotted n) := by
  have full : (dotted n).text ≠ "" := by
    intro empty
    simpa [dotted] using congrArg String.toList empty
  have size : (dotted n).text.utf8ByteSize = 2 * n + 7 := Path.utf8ByteSize_dots n
  have plain : '\x00' ∉ (dotted n).text.toList := by
    simp [dotted]
  simp [Workspace.isUsablePath, full, size, plain, short, Workspace.maxPathBytes]

lemma leadsTo_dotted (short : 2 * n + 7 ≤ 4095) : emptyWorkspace.LeadsTo (dotted n) where
  usable := isUsablePath_dotted short
  steps := by
    refine ⟨List.replicate n .here, "ab.toml", Path.steps_dots n (by decide), by decide, ?_⟩
    have top : emptyWorkspace.start (dotted n) = [] := ite_self _
    have through (m : Nat) : emptyWorkspace.Leads [] (List.replicate m .here) := by
      induction m with
      | zero => exact Workspace.leads_nil.mpr rfl
      | succ m ih => exact Workspace.leads_here.mpr ih
    rw [top]
    exact through n

lemma place_dotted (n : Nat) : emptyWorkspace.place (dotted n) = ["ab.toml"] := by
  have stay (m : Nat) : (List.replicate m Path.Step.here).foldl Files.stepFrom [] = [] := by
    induction m with
    | zero => rfl
    | succ m ih => exact ih
  have top : emptyWorkspace.start (dotted n) = [] := ite_self _
  rw [Workspace.place_of_split (Path.steps_dots n (by decide)), top, stay]
  rfl

lemma save_dotted (short : 2 * n + 7 ≤ 4095) :
    (config.save emptyWorkspace (dotted n)).1 = .ok () := by
  have leads := leadsTo_dotted short
  have free : emptyWorkspace.entryAt? (emptyWorkspace.place (dotted n)) ≠ some .directory := by
    rw [place_dotted]
    nofun
  have done : (emptyWorkspace.write (dotted n) config.document.toUTF8).1 = .ok () :=
    leads.write free
  rw [save]
  show Except.mapError _ (emptyWorkspace.write (dotted n) config.document.toUTF8).1 = _
  rw [done]
  rfl

/-- It is not loaded by the long path, where the path in its absolute form is too long. -/
lemma load_dotted_ne [Setting.Formats] (long : 4095 < 2 * n + 8)
    (saved : (config.save emptyWorkspace (dotted n)).1 = .ok ()) (other : Config) :
    load (config.save emptyWorkspace (dotted n)).2 [] (some (dotted n)) ≠ .ok other := by
  intro loaded
  have placed : emptyWorkspace.Placed := fun _ mem => absurd mem List.not_mem_nil
  have written := fileWritten_of_save (Prod.ext saved rfl)
  have ends : (dotted n).text.toList =
      (String.join (List.replicate n "./") ++ "ab").toList ++ ".toml".toList := by
    simp [dotted]
  obtain ⟨-, usable⟩ := loads_path placed ⟨_, ends⟩ written loaded
  have relative : (dotted n).text.toList.head? ≠ some Path.separator := by
    cases n <;> simp [dotted, List.replicate_succ, Path.separator]
  have text : (emptyWorkspace.absolute (dotted n)).text = "/" ++ (dotted n).text := by
    rw [← String.toList_inj, Workspace.absolute, String.toList_append]
    exact Path.text_join_root (fun _ mem => absurd mem List.not_mem_nil) relative
  have size : (dotted n).text.utf8ByteSize = 2 * n + 7 := Path.utf8ByteSize_dots n
  have one : "/".utf8ByteSize = 1 := rfl
  simp only [Workspace.isUsablePath, text, String.utf8ByteSize_append, size, one,
    Workspace.maxPathBytes, Bool.and_eq_true, decide_eq_true_eq] at usable
  omega

end Dots

/-- A configuration that has been saved by a path with the extension of TOML is loaded again exactly
when the name of the file has something in front of the extension and the absolute form of the path
can be used, where no variable is a setting and the files of the other layers can be read. -/
theorem saved_loads_iff [Setting.Formats]
    (ends : ∃ front, path.text.toList = front ++ ".toml".toList)
    (placed : w.Placed)
    (wellFormed : ∃ below, layers w environment none = .ok below)
    (free : ∀ entry ∈ environment, Environment.key? entry.1 = none)
    (saved : config.save w path = (.ok (), after)) :
    load after environment (some path) = .ok config ↔
      path.HasTomlName ∧ Workspace.isUsablePath (w.absolute path) := by
  have written := fileWritten_of_save saved
  constructor
  · exact loads_path placed ends written
  · rintro ⟨named, usable⟩
    obtain ⟨lower, read⟩ := exists_layers written named placed usable wellFormed
    have none : environment.settings = [] := by
      refine List.filterMap_eq_nil_iff.mpr fun entry mem => ?_
      exact congrArg (Option.map _) (free entry mem)
    rw [none] at read
    exact load_eq_ok.mpr ⟨_, read, converted_saved config lower⟩

/-- A configuration is saved and loaded in a directory where a file says something else about the
project and the kind of the classes. -/
theorem shop_saved_loads :
    let config : Config :=
      { projectId := "the \"shop\"\n'''", structuredModel := ["RichText", "True"] }
    let w : Workspace :=
      ⟨.dir [("shop", .dir [("model-generator.toml",
        .file "project_id = 7\nmanagement_api = true\n".toUTF8)])], ["shop"]⟩
    let path : Path := ⟨"saved.toml"⟩
    (∃ front, path.text.toList = front ++ ".toml".toList) ∧ w.Placed ∧
      (∃ below, layers w [("HOME", "/home/shop")] none = .ok below) ∧
      (∀ entry ∈ [("HOME", "/home/shop")], Environment.key? entry.1 = none) ∧
      (config.save w path).1 = .ok () ∧
      load (config.save w path).2 [("HOME", "/home/shop")] (some path) = .ok config := by
  intro config w path
  have ends : ∃ front, path.text.toList = front ++ ".toml".toList := ⟨"saved".toList, by decide⟩
  have placed : w.Placed := by
    intro name mem
    rw [List.mem_singleton.mp mem]
    exact ⟨⟨by decide, by decide⟩, by decide⟩
  have wellFormed : ∃ below, layers w [("HOME", "/home/shop")] none = .ok below := by
    have read : (layers w [("HOME", "/home/shop")] none).isOk := by decide +kernel
    cases given : layers w [("HOME", "/home/shop")] none with
    | ok below => exact ⟨below, rfl⟩
    | error failure =>
      rw [given] at read
      cases read
  have free : ∀ entry ∈ [("HOME", "/home/shop")], Environment.key? entry.1 = none := by
    decide +kernel
  have saved : (config.save w path).1 = .ok () := by decide +kernel
  have named : path.HasTomlName := ⟨"save".toList, 'd', by decide, by decide⟩
  have usable : Workspace.isUsablePath (w.absolute path) := by decide +kernel
  exact ⟨ends, placed, wellFormed, free, saved,
    (saved_loads_iff ends placed wellFormed free (Prod.ext saved rfl)).mpr ⟨named, usable⟩⟩

/-- A configuration is not loaded from a file whose name is all extension, nor by a relative path
that is too long when it is made absolute, though it is saved there. -/
theorem saved_not_loaded :
    let config : Config := { projectId := "shop" }
    let w : Workspace := ⟨.emptyDir, []⟩
    let hidden : Path := ⟨".toml"⟩
    let long : Path := ⟨String.join (List.replicate 2044 "./") ++ "ab.toml"⟩
    ((config.save w hidden).1 = .ok () ∧
      ∀ [Setting.Formats] other, load (config.save w hidden).2 [] (some hidden) ≠ .ok other) ∧
    (config.save w long).1 = .ok () ∧
      ∀ [Setting.Formats] other, load (config.save w long).2 [] (some long) ≠ .ok other := by
  intro config w hidden long
  have hidden_saved : (config.save w hidden).1 = .ok () := by decide +kernel
  have long_saved : (config.save w long).1 = .ok () := save_dotted config (by decide)
  refine ⟨⟨hidden_saved, fun {_} other loaded => ?_⟩, long_saved, ?_⟩
  · have placed : w.Placed := fun _ mem => absurd mem List.not_mem_nil
    have written := fileWritten_of_save (Prod.ext hidden_saved rfl)
    obtain ⟨⟨front, c, -, text⟩, -⟩ := loads_path placed ⟨[], rfl⟩ written loaded
    have longer := congrArg List.length text
    simp at longer
  · exact load_dotted_ne config (by decide) long_saved

end Config

end ContentClasses
