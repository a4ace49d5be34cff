import ContentClasses.Config.Layers
import ContentClasses.Proofs.Rows

/-!
# Settings over settings

What the layers of settings give for one field, seen apart from all others: `lookup_merged` finds it
by going through the settings one by one, and only those whose key starts with the name of the field
count. A configuration is what the nine fields are converted to.
-/

namespace ContentClasses

namespace Setting
variable {key name first : String} {steps : List Step} {old new : Setting} {value? : Option Setting}
  {setting : String × Setting} {settings : Settings}

/-- A part of a key starts with a name. -/
lemma nameAndIndices?_eq_some {part : List Char} (done : nameAndIndices? part = some steps) :
    ∃ name rest, steps = .name name :: rest := by
  rw [nameAndIndices?] at done
  split at done
  case isTrue => cases done
  case isFalse =>
    dsimp only at done
    split at done
    case isFalse => cases done
    case isTrue =>
      obtain ⟨indices, -, rfl⟩ := Option.map_eq_some_iff.mp done
      exact ⟨_, indices, rfl⟩

/-- The first step of a key is to a field. -/
lemma exists_stepsOfKey (key : String) : ∃ name rest, stepsOfKey key = .name name :: rest := by
  rw [stepsOfKey]
  split
  case h_2 => exact ⟨_, [], rfl⟩
  case h_1 parts read =>
    obtain ⟨part, others, split⟩ :=
      List.exists_cons_of_ne_nil (List.splitOn_ne_nil '.' (lowercase key).toList)
    rw [split, List.mapM_cons] at read
    obtain ⟨steps, part_read, read⟩ := Option.bind_eq_some_iff.mp read
    obtain ⟨later, -, done⟩ := Option.bind_eq_some_iff.mp read
    obtain ⟨name, rest, rfl⟩ := nameAndIndices?_eq_some part_read
    cases done
    exact ⟨name, rest ++ later.flatten, rfl⟩

/-- The field that a key leads to or into. -/
def fieldOfKey (key : String) : Option String :=
  match stepsOfKey key with
  | .name name :: _ => some name
  | _ => none

/-- The value of a field with one setting more. -/
def after (name : String) (value? : Option Setting) (setting : String × Setting) :
    Option Setting :=
  if fieldOfKey setting.1 = some name then
    some ((value?.getD null).overlayAt setting.2 (stepsOfKey setting.1).tail)
  else value?

/-- A setting with the key of another field leaves this one. -/
lemma after_other (other : fieldOfKey key ≠ some name) : after name value? (key, new) = value? :=
  if_neg other

lemma toTexts?_texts (names : List String) :
    toTexts? (.list (names.map .text)) = some names := by
  rw [toTexts?]
  induction names with
  | nil => rfl
  | cons name names ih =>
    rw [List.map_cons, List.mapM_cons, ih]
    rfl

/-- What is no table replaces what was there. -/
lemma overlay_of_not_table (plain : ∀ entries, new ≠ table entries) : old.overlay new = new := by
  cases new with
  | table entries => exact absurd rfl (plain entries)
  | _ => rw [overlay]; exact nofun

/-- A setting with the plain key of a field replaces its value, unless it is a table. -/
lemma after_own (own : stepsOfKey key = [.name name]) (plain : ∀ entries, new ≠ table entries) :
    after name value? (key, new) = some new := by
  rw [after, fieldOfKey, own, if_pos rfl, List.tail_cons, overlayAt, overlay_of_not_table plain]

/-- What is laid over a table by a key is seen at each name as one setting more. -/
lemma lookup_overlayAt (key : String) :
    (old.overlayAt new (stepsOfKey key)).entries.lookup name =
      after name (old.entries.lookup name) (key, new) := by
  obtain ⟨first, steps, split⟩ := exists_stepsOfKey key
  rw [after, fieldOfKey, split, overlayAt, entries, Files.lookup_assign, List.tail_cons]
  by_cases same : name = first
  · subst same
    rw [if_pos rfl, if_pos rfl]
  · rw [if_neg same, if_neg]
    rintro ⟨rfl⟩
    exact same rfl

end Setting

namespace Settings
variable {name : String} {settings front back : Settings} {setting : String × Setting}
  {value? : Option Setting}

/-- The value of a field with some settings more. -/
def after (name : String) (value? : Option Setting) (settings : Settings) : Option Setting :=
  settings.foldl (Setting.after name) value?

lemma after_append :
    after name value? (front ++ back) = after name (after name value? front) back :=
  List.foldl_append

lemma after_cons : after name value? (setting :: settings) =
    after name (Setting.after name value? setting) settings :=
  rfl

/-- Settings of other fields change nothing. -/
lemma after_others (others : ∀ setting ∈ settings, Setting.fieldOfKey setting.1 ≠ some name) :
    after name value? settings = value? := by
  induction settings with
  | nil => rfl
  | cons setting settings ih =>
    obtain ⟨key, new⟩ := setting
    rw [List.forall_mem_cons] at others
    rw [after_cons, Setting.after_other others.1, ih others.2]

/-- The settings of a layer act on each field in their order. -/
lemma lookup_layOver {below : Setting} :
    (layOver settings below).entries.lookup name =
      after name (below.entries.lookup name) settings := by
  induction settings generalizing below with
  | nil => rfl
  | cons setting settings ih =>
    obtain ⟨key, new⟩ := setting
    have first : layOver ((key, new) :: settings) below =
        layOver settings (below.overlayAt new (Setting.stepsOfKey key)) := rfl
    rw [first, ih, Setting.lookup_overlayAt, after_cons]

end Settings

/-- The settings with a text as their value. -/
inductive TextSetting where
  | projectId
  | namespaceName
  | outputDir
  | schemaDir
  | fileNameSuffix
deriving DecidableEq, Repr

namespace TextSetting

/-- The key of the setting. -/
def key : TextSetting → String
  | projectId => "project_id"
  | namespaceName => "namespace"
  | outputDir => "output_dir"
  | schemaDir => "schema_dir"
  | fileNameSuffix => "file_name_suffix"

/-- The text of the setting in a configuration. -/
def get (config : Config) : TextSetting → String
  | projectId => config.projectId
  | namespaceName => config.namespaceName
  | outputDir => config.outputDir.text
  | schemaDir => config.schemaDir.text
  | fileNameSuffix => config.fileNameSuffix

end TextSetting

/-- The settings with a truth value. -/
inductive SwitchSetting where
  | managementApi
  | extendedModels
  | withTypeProvider
deriving DecidableEq, Repr

namespace SwitchSetting

/-- The key of the setting. -/
def key : SwitchSetting → String
  | managementApi => "management_api"
  | extendedModels => "extended_models"
  | withTypeProvider => "with_type_provider"

/-- The value of the setting in a configuration. -/
def get (config : Config) : SwitchSetting → Bool
  | managementApi => config.managementApi
  | extendedModels => config.extendedModels
  | withTypeProvider => config.withTypeProvider

end SwitchSetting

namespace Config
variable {layers : List Settings} {settings others : Settings} {config : Config} {name : String}

/-- The layers give for a field what all their settings give one by one. -/
lemma lookup_merged : (merged layers).lookup name = Settings.after name none layers.flatten := by
  have folded (below : Setting) :
      (layers.foldl (fun below layer => Settings.layOver layer below) below).entries.lookup name =
        Settings.after name (below.entries.lookup name) layers.flatten := by
    induction layers generalizing below with
    | nil => rfl
    | cons layer layers ih =>
      rw [List.foldl_cons, ih, Settings.lookup_layOver, List.flatten_cons, Settings.after_append]
  exact folded (.table [])

/-- The last layer acts on a field behind all layers below it. -/
lemma lookup_merged_concat {lower : List Settings} {layer : Settings} :
    (merged (lower ++ [layer])).lookup name =
      Settings.after name (Settings.after name none lower.flatten) layer := by
  rw [lookup_merged, List.flatten_append, List.flatten_singleton, Settings.after_append]

section Fields
variable {α β : Type} {default a : α} {b : β} {convert? : Setting → Option α} {value : Setting}

lemma fieldOf_congr (same : others.lookup name = settings.lookup name) :
    fieldOf others name default convert? = fieldOf settings name default convert? := by
  rw [fieldOf, fieldOf, same]

lemma fieldOf_of_lookup (found : settings.lookup name = some value)
    (converted : convert? value = some a) : fieldOf settings name default convert? = .ok a := by
  rw [fieldOf, found]
  dsimp only
  rw [converted]

/-- To convert further changes nothing but the value. -/
lemma fieldOf_map {f : α → β} :
    fieldOf settings name (f default) (fun value => (convert? value).map f) =
      (fieldOf settings name default convert?).map f := by
  rw [fieldOf, fieldOf]
  cases settings.lookup name with
  | none => rfl
  | some value =>
    dsimp only
    cases convert? value <;> rfl

end Fields

/-- Each field of the configuration is what its setting is converted to, or what is put for a field
that is left out. -/
structure Converted (settings : Settings) (config : Config) : Prop where
  texts (setting : TextSetting) :
    fieldOf settings setting.key (setting.get omitted) Setting.toText? = .ok (setting.get config)
  switches (setting : SwitchSetting) :
    fieldOf settings setting.key (setting.get omitted) Setting.toBool? = .ok (setting.get config)
  structuredModel :
    fieldOf settings "structured_model" omitted.structuredModel Setting.toTexts? =
      .ok config.structuredModel

/-- Settings give a configuration when they are converted to it in every field. -/
lemma ofSettings_eq_ok : ofSettings settings = .ok config ↔ Converted settings config := by
  have path {key text : String} {path : Path} :
      fieldOf settings key (Path.mk text) (fun value => value.toText?.map Path.mk) = .ok path ↔
        fieldOf settings key text Setting.toText? = .ok path.text := by
    rw [fieldOf_map]
    obtain ⟨text'⟩ := path
    cases fieldOf settings key text Setting.toText? <;> simp [Except.map]
  -- A path is read as a text, so that only the fields with paths need a conversion more.
  constructor
  · intro done
    obtain ⟨projectId, projectId_read, done⟩ := bind_eq_ok.mp done
    obtain ⟨namespaceName, namespaceName_read, done⟩ := bind_eq_ok.mp done
    obtain ⟨outputDir, outputDir_read, done⟩ := bind_eq_ok.mp done
    obtain ⟨schemaDir, schemaDir_read, done⟩ := bind_eq_ok.mp done
    obtain ⟨fileNameSuffix, fileNameSuffix_read, done⟩ := bind_eq_ok.mp done
    obtain ⟨managementApi, managementApi_read, done⟩ := bind_eq_ok.mp done
    obtain ⟨extendedModels, extendedModels_read, done⟩ := bind_eq_ok.mp done
    obtain ⟨structuredModel, structuredModel_read, done⟩ := bind_eq_ok.mp done
    obtain ⟨withTypeProvider, withTypeProvider_read, done⟩ := bind_eq_ok.mp done
    cases done
    refine ⟨fun setting => ?_, fun setting => ?_, structuredModel_read⟩
    · cases setting with
      | projectId => exact projectId_read
      | namespaceName => exact namespaceName_read
      | outputDir => exact path.mp outputDir_read
      | schemaDir => exact path.mp schemaDir_read
      | fileNameSuffix => exact fileNameSuffix_read
    · cases setting with
      | managementApi => exact managementApi_read
      | extendedModels => exact extendedModels_read
      | withTypeProvider => exact withTypeProvider_read
  · intro all
    refine bind_eq_ok.mpr ⟨_, all.texts .projectId, ?_⟩
    refine bind_eq_ok.mpr ⟨_, all.texts .namespaceName, ?_⟩
    refine bind_eq_ok.mpr ⟨config.outputDir, path.mpr (all.texts .outputDir), ?_⟩
    refine bind_eq_ok.mpr ⟨config.schemaDir, path.mpr (all.texts .schemaDir), ?_⟩
    refine bind_eq_ok.mpr ⟨_, all.texts .fileNameSuffix, ?_⟩
    refine bind_eq_ok.mpr ⟨_, all.switches .managementApi, ?_⟩
    refine bind_eq_ok.mpr ⟨_, all.switches .extendedModels, ?_⟩
    refine bind_eq_ok.mpr ⟨_, all.structuredModel, ?_⟩
    refine bind_eq_ok.mpr ⟨_, all.switches .withTypeProvider, ?_⟩
    rfl

/-- A configuration is loaded when the layers can be read and are converted to it. -/
lemma load_eq_ok [Setting.Formats] {w : Files.Workspace} {environment : Environment}
    {path? : Option Path} :
    load w environment path? = .ok config ↔
      ∃ layers, Config.layers w environment path? = .ok layers ∧
        Converted (merged layers) config := by
  rw [load]
  cases Config.layers w environment path? with
  | error failure => simp [Except.bind, Except.mapError]
  | ok layers =>
    have converted : (ofSettings (merged layers)).mapError Error.settings = .ok config ↔
        Converted (merged layers) config := by
      rw [← ofSettings_eq_ok]
      cases ofSettings (merged layers) <;> simp [Except.mapError]
    simpa [Except.bind] using converted

section Layers
variable [Setting.Formats] {w : Files.Workspace} {environment other : Environment}
  {path? : Option Path}

/-- The settings of the file of the user. -/
def userLayer (w : Files.Workspace) (environment : Environment) :
    Except Setting.Failure Settings :=
  match (userFile? environment).filter fun file => (w.node? file).isSome with
  | some file => Settings.readOptional w file
  | none => .ok []

/-- The settings of the file that is asked for. -/
def askedLayer (w : Files.Workspace) (path? : Option Path) : Except Setting.Failure Settings :=
  match path? with
  | some path => Settings.readRequired w path
  | none => .ok []

/-- The layers are those of the files in the working directory, of the file of the user, of the file
that is asked for, and of the environment. -/
lemma layers_eq_ok :
    Config.layers w environment path? = .ok layers ↔
      ∃ files user asked, defaultFiles.mapM (Settings.readOptional w) = .ok files ∧
        userLayer w environment = .ok user ∧ askedLayer w path? = .ok asked ∧
        layers = files ++ [user, asked, environment.settings] := by
  unfold Config.layers userLayer askedLayer
  cases (userFile? environment).filter fun file => (w.node? file).isSome <;> cases path? <;>
    simp only [pure, Except.pure, bind_eq_ok, Except.ok.injEq, eq_comm (b := layers),
      exists_eq_left', exists_and_left]

/-- A change of the environment that leaves the file of the user changes the highest layer only. -/
lemma layers_congr (user : userFile? other = userFile? environment)
    (done : Config.layers w environment path? = .ok layers) :
    ∃ lower, layers = lower ++ [environment.settings] ∧
      Config.layers w other path? = .ok (lower ++ [other.settings]) := by
  obtain ⟨files, own, asked, files_read, own_read, asked_read, rfl⟩ := layers_eq_ok.mp done
  refine ⟨files ++ [own, asked], by simp, layers_eq_ok.mpr ?_⟩
  refine ⟨files, own, asked, files_read, ?_, asked_read, by simp⟩
  rw [userLayer, user]
  exact own_read

end Layers

end Config

end ContentClasses
