import ContentClasses.Proofs.HighestLayers
import ContentClasses.Proofs.SettingSources

/-!
# Precedence of layers

What a configuration is loaded to from its layers, field by field, and what a command line changes
of it: `Config.loaded_by_precedence`. Every field is what the value that counts for it is converted
to, or has its default where no layer sets it. A value that is covered by another may be of any
type.
-/

namespace ContentClasses

open CommandLine (Arguments)
open Files (Workspace)

/-- The value of a field of a configuration. -/
inductive FieldValue where
  | text (value : String)
  | switch (value : Bool)
  | names (value : List String)
deriving DecidableEq, Repr

/-- The switch is among the arguments. -/
def SwitchSetting.given (a : Arguments) : SwitchSetting → Bool
  | managementApi => a.management
  | extendedModels => a.extended
  | withTypeProvider => a.withTypeProvider

namespace Config

/-- A field of a configuration. -/
inductive Field where
  | text (setting : TextSetting)
  | switch (setting : SwitchSetting)
  | structuredModel
deriving DecidableEq, Repr

namespace Field

/-- The key of a field. -/
def key : Field → String
  | text setting => setting.key
  | switch setting => setting.key
  | structuredModel => "structured_model"

/-- The value of a field in a configuration. -/
def get (config : Config) : Field → FieldValue
  | text setting => .text (setting.get config)
  | switch setting => .switch (setting.get config)
  | structuredModel => .names config.structuredModel

/-- A value of a setting, converted to the type of a field. -/
def convert? : Field → Setting → Option FieldValue
  | text _, value => value.toText?.map .text
  | switch _, value => value.toBool?.map .switch
  | structuredModel, value => value.toTexts?.map .names

/-- The value that the arguments give for a field. Switches are only turned on. -/
def given? (a : Arguments) : Field → Option FieldValue
  | text setting => (setting.given? a).map .text
  | switch setting => if setting.given a then some (.switch true) else none
  | structuredModel => if a.structured.isEmpty then none else some (.names a.structured)

/-- The layers give a field a value: what the value that counts for it is converted to, or the
default of the field where no layer sets it. -/
def IsGiven (field : Field) (layers : List Settings) (value : FieldValue) : Prop :=
  match Settings.highest? field.key layers with
  | some counts => field.convert? counts = some value
  | none => value = field.get {}

/-- All fields. -/
def all : List Field :=
  [text .projectId, text .namespaceName, text .outputDir, text .schemaDir, text .fileNameSuffix,
    switch .managementApi, switch .extendedModels, switch .withTypeProvider, structuredModel]

lemma mem_all (field : Field) : field ∈ all := by
  obtain (_ | _ | _ | _ | _) | (_ | _ | _) | _ := field <;> decide

instance {P : Field → Prop} [DecidablePred P] : Decidable (∀ field, P field) :=
  decidable_of_iff (∀ field ∈ all, P field)
    ⟨fun each field => each field field.mem_all, fun each field _ => each field⟩

/-- No field takes a null or a table. -/
lemma refuses (field : Field) : Setting.Refuses field.convert? where
  null := by cases field <;> rfl
  table _ := by cases field <;> rfl

/-- The names of structured kinds are the only field that takes a list. -/
lemma refuses_lists (field : Field) :
    (∀ items, field.convert? (.list items) = none) ∨ field = .structuredModel := by
  cases field with
  | text => exact .inl fun _ => rfl
  | switch => exact .inl fun _ => rfl
  | structuredModel => exact .inr rfl

end Field

variable {config other : Config} {settings : Settings} {layers : List Settings} {field : Field}

/-- The configuration with some values for its fields. -/
def ofFields (texts : TextSetting → String) (switches : SwitchSetting → Bool)
    (names : List String) : Config where
  projectId := texts .projectId
  namespaceName := texts .namespaceName
  outputDir := ⟨texts .outputDir⟩
  schemaDir := ⟨texts .schemaDir⟩
  fileNameSuffix := texts .fileNameSuffix
  managementApi := switches .managementApi
  extendedModels := switches .extendedModels
  structuredModel := names
  withTypeProvider := switches .withTypeProvider

section OfFields
variable {texts : TextSetting → String} {switches : SwitchSetting → Bool} {names : List String}

lemma get_text_ofFields (setting : TextSetting) :
    setting.get (ofFields texts switches names) = texts setting := by
  cases setting <;> rfl

lemma get_switch_ofFields (setting : SwitchSetting) :
    setting.get (ofFields texts switches names) = switches setting := by
  cases setting <;> rfl

/-- A configuration is made of the values of its fields. -/
lemma ofFields_get (config : Config) :
    ofFields (TextSetting.get config) (SwitchSetting.get config) config.structuredModel = config :=
  rfl

/-- A configuration is told by its fields. -/
lemma ext_get (same : ∀ field : Field, field.get config = field.get other) : config = other := by
  have texts : TextSetting.get config = TextSetting.get other :=
    funext fun setting => FieldValue.text.inj (same (.text setting))
  have switches : SwitchSetting.get config = SwitchSetting.get other :=
    funext fun setting => FieldValue.switch.inj (same (.switch setting))
  have names : config.structuredModel = other.structuredModel :=
    FieldValue.names.inj (same .structuredModel)
  rw [← ofFields_get config, texts, switches, names, ofFields_get]

end OfFields

section Conversion

/-- The value that settings give a field. -/
def fieldValue (settings : Settings) (field : Field) : Except Setting.Failure FieldValue :=
  fieldOf settings field.key (field.get omitted) field.convert?

lemma fieldValue_text (setting : TextSetting) : fieldValue settings (.text setting) =
    (fieldOf settings setting.key (setting.get omitted) Setting.toText?).map .text := by
  rw [← fieldOf_map]
  rfl

lemma fieldValue_switch (setting : SwitchSetting) : fieldValue settings (.switch setting) =
    (fieldOf settings setting.key (setting.get omitted) Setting.toBool?).map .switch := by
  rw [← fieldOf_map]
  rfl

/-- The names of structured kinds are read from their own key, as a list of texts. -/
lemma fieldValue_structuredModel : fieldValue settings .structuredModel =
    (fieldOf settings "structured_model" omitted.structuredModel Setting.toTexts?).map
      .names := by
  rw [← fieldOf_map]
  rfl

section Map
variable {α β : Type} {read : Except Setting.Failure α} {f : α → β} {b : β}

lemma map_eq_ok : read.map f = .ok b ↔ ∃ a, read = .ok a ∧ f a = b := by
  cases read <;> simp [Except.map]

lemma exists_map_eq_ok : (∃ b, read.map f = .ok b) ↔ ∃ a, read = .ok a := by
  simp [map_eq_ok]

end Map

/-- Settings are converted field by field. -/
lemma converted_iff :
    Converted settings config ↔
      ∀ field : Field, fieldValue settings field = .ok (field.get config) := by
  constructor
  · intro all field
    cases field with
    | text setting =>
      rw [fieldValue_text, all.texts]
      rfl
    | switch setting =>
      rw [fieldValue_switch, all.switches]
      rfl
    | structuredModel =>
      rw [fieldValue_structuredModel, all.structuredModel]
      rfl
  · intro each
    refine ⟨fun setting => ?_, fun setting => ?_, ?_⟩
    · obtain ⟨text, read, ⟨⟩⟩ := map_eq_ok.mp ((fieldValue_text setting).symm.trans (each _))
      exact read
    · obtain ⟨switch, read, ⟨⟩⟩ := map_eq_ok.mp ((fieldValue_switch setting).symm.trans (each _))
      exact read
    · obtain ⟨names, read, ⟨⟩⟩ := map_eq_ok.mp (fieldValue_structuredModel.symm.trans (each _))
      exact read

/-- A configuration is made of values for each field. -/
lemma exists_converted (each : ∀ field : Field, ∃ value, fieldValue settings field = .ok value) :
    ∃ config, Converted settings config := by
  have texts (setting : TextSetting) : ∃ text,
      fieldOf settings setting.key (setting.get omitted) Setting.toText? = .ok text := by
    have given := each (.text setting)
    rwa [fieldValue_text, exists_map_eq_ok] at given
  have switches (setting : SwitchSetting) : ∃ switch,
      fieldOf settings setting.key (setting.get omitted) Setting.toBool? = .ok switch := by
    have given := each (.switch setting)
    rwa [fieldValue_switch, exists_map_eq_ok] at given
  have names := each .structuredModel
  rw [fieldValue_structuredModel, exists_map_eq_ok] at names
  obtain ⟨names, names_read⟩ := names
  choose texts texts_read using texts
  choose switches switches_read using switches
  refine ⟨ofFields texts switches names, fun setting => ?_, fun setting => ?_, names_read⟩
  · rw [texts_read, get_text_ofFields]
  · rw [switches_read, get_switch_ofFields]

/-- A field is what its setting is converted to, or its default where there is none. -/
lemma fieldOf_eq_ok {α : Type} {name : String} {default value : α}
    {convert? : Setting → Option α} :
    fieldOf settings name default convert? = .ok value ↔
      match (settings.lookup name).map convert? with
      | some converted => converted = some value
      | none => value = default := by
  rw [fieldOf]
  cases settings.lookup name with
  | none => simp [eq_comm]
  | some given => cases result : convert? given <;> simp [result]

/-- The settings that remain of the layers give a field the value that the layers give it. What is
put for a field that none of them sets is what it has in the configuration where nothing is
said. -/
lemma fieldValue_merged {value : FieldValue} (once : ∀ layer ∈ layers, layer.SetsOnce field.key)
    (whole : ∀ layer ∈ layers, layer.SetsWhole "structured_model") :
    fieldValue (merged layers) field = .ok value ↔ field.IsGiven layers value := by
  have own : ∀ layer ∈ layers,
      (∀ items, field.convert? (.list items) = none) ∨ layer.SetsWhole field.key := by
    intro layer mem
    obtain none | rfl := field.refuses_lists
    · exact .inl none
    · exact .inr (whole layer mem)
  rw [fieldValue, omitted_eq, fieldOf_eq_ok, lookup_merged,
    Settings.map_after_flatten field.refuses once own, Field.IsGiven]
  cases Settings.highest? field.key layers <;> rfl

/-- A field has a value unless the one that counts for it cannot be converted. -/
lemma exists_isGiven :
    (∃ value, field.IsGiven layers value) ↔
      ∀ counts, Settings.highest? field.key layers = some counts →
        field.convert? counts ≠ none := by
  unfold Field.IsGiven
  cases Settings.highest? field.key layers <;> simp [Option.ne_none_iff_exists']

end Conversion

/-- The settings that have been read, none after a failure. -/
def settingsOf (read : Except Setting.Failure Settings) : Settings :=
  read.toOption.getD []

/-- What has been read without a failure is the settings that have been read. -/
lemma eq_ok_of_isOk {read : Except Setting.Failure Settings} (fine : read.isOk) :
    read = .ok (settingsOf read) := by
  cases read with
  | error => cases fine
  | ok => rfl

section Layers
variable [Setting.Formats] {w : Workspace} {environment : Environment} {path? : Option Path}
  {path : Path}

/-- The layers of settings, from the lowest to the highest. What cannot be read sets nothing. -/
def sources (w : Workspace) (environment : Environment) (path? : Option Path) : List Settings :=
  defaultFiles.map (fun file => settingsOf (Settings.readOptional w file)) ++
    [settingsOf (userLayer w environment), settingsOf (askedLayer w path?), environment.settings]

/-- A path leads to a file in a known format that holds text. -/
def Readable (w : Workspace) (path : Path) : Prop :=
  ∃ file format text,
    Settings.find w path = .ok (file, format) ∧ Settings.textOf w file = .ok text

/-- The files that can be read are well formed, and no layer sets a field twice or single names of
structured kinds. -/
structure WellFormed (w : Workspace) (environment : Environment) (path? : Option Path) : Prop where
  files : ∀ file ∈ defaultFiles, (Settings.readOptional w file).isOk
  user : (userLayer w environment).isOk
  asked : ∀ path ∈ path?, Readable w path → (Settings.readRequired w path).isOk
  once : ∀ layer ∈ sources w environment path?, ∀ field : Field, layer.SetsOnce field.key
  whole : ∀ layer ∈ sources w environment path?, layer.SetsWhole "structured_model"

/-- A file from which settings are read can be read. -/
lemma readable_of_readRequired {settings : Settings}
    (done : Settings.readRequired w path = .ok settings) : Readable w path := by
  rw [Settings.readRequired] at done
  obtain ⟨⟨file, format⟩, found, done⟩ := bind_eq_ok.mp done
  obtain ⟨text, read, -⟩ := bind_eq_ok.mp done
  exact ⟨file, format, text, found, read⟩

/-- All layers are there only where the file that is asked for can be read. -/
lemma readable_of_layers (done : Config.layers w environment path? = .ok layers) :
    ∀ path ∈ path?, Readable w path := by
  rintro path ⟨⟩
  obtain ⟨files, user, asked, -, -, asked_read, -⟩ := layers_eq_ok.mp done
  exact readable_of_readRequired asked_read

namespace WellFormed
variable (wellFormed : WellFormed w environment path?)
include wellFormed

/-- Where the file that is asked for can be read, the layers are the sources in their order. -/
lemma layers_eq (readable : ∀ path ∈ path?, Readable w path) :
    Config.layers w environment path? = .ok (sources w environment path?) := by
  have files : defaultFiles.mapM (Settings.readOptional w) =
      .ok (defaultFiles.map fun file => settingsOf (Settings.readOptional w file)) :=
    mapM_eq_ok.mpr (List.forall₂_map_right_iff.mpr (List.forall₂_same.mpr fun file mem =>
      eq_ok_of_isOk (wellFormed.files file mem)))
  have asked : (askedLayer w path?).isOk := by
    cases path? with
    | none => rfl
    | some path => exact wellFormed.asked path rfl (readable path rfl)
  exact layers_eq_ok.mpr
    ⟨_, _, _, files, eq_ok_of_isOk wellFormed.user, eq_ok_of_isOk asked, rfl⟩

/-- The merged layers have for a field what the layers give it. -/
lemma fieldValue_eq_ok {value : FieldValue} :
    fieldValue (merged (sources w environment path?)) field = .ok value ↔
      field.IsGiven (sources w environment path?) value :=
  fieldValue_merged (fun layer mem => wellFormed.once layer mem field) wellFormed.whole

/-- What is loaded is told field by field. -/
lemma load_eq_ok_iff :
    load w environment path? = .ok config ↔
      (∀ path ∈ path?, Readable w path) ∧
        ∀ field : Field, field.IsGiven (sources w environment path?) (field.get config) := by
  rw [load_eq_ok]
  constructor
  · rintro ⟨layers, read, converted⟩
    have readable := readable_of_layers read
    -- The layers that have been read are those that the values are said of.
    cases read.symm.trans (wellFormed.layers_eq readable)
    exact ⟨readable, fun field => wellFormed.fieldValue_eq_ok.mp (converted_iff.mp converted field)⟩
  · rintro ⟨readable, loaded⟩
    exact ⟨_, wellFormed.layers_eq readable,
      converted_iff.mpr fun field => wellFormed.fieldValue_eq_ok.mpr (loaded field)⟩

/-- A configuration is loaded where every value that counts can be converted. -/
lemma loads_iff :
    (∃ config, load w environment path? = .ok config) ↔
      (∀ path ∈ path?, Readable w path) ∧ ∀ (field : Field) (counts : Setting),
        Settings.highest? field.key (sources w environment path?) = some counts →
          field.convert? counts ≠ none := by
  constructor
  · rintro ⟨config, loaded⟩
    obtain ⟨readable, given⟩ := wellFormed.load_eq_ok_iff.mp loaded
    exact ⟨readable, fun field => exists_isGiven.mp ⟨_, given field⟩⟩
  · rintro ⟨readable, converts⟩
    have each (field : Field) :
        ∃ value, fieldValue (merged (sources w environment path?)) field = .ok value :=
      (exists_isGiven.mpr (converts field)).imp fun _ => wellFormed.fieldValue_eq_ok.mpr
    obtain ⟨config, converted⟩ := exists_converted each
    exact ⟨config, load_eq_ok.mpr ⟨_, wellFormed.layers_eq readable, converted⟩⟩

/-- A load fails by a value that counts and cannot be converted, or by the file that is asked
for. -/
lemma load_fails_iff :
    (∃ e, load w environment path? = .error e) ↔
      (∃ (field : Field) (counts : Setting),
        Settings.highest? field.key (sources w environment path?) = some counts ∧
          field.convert? counts = none) ∨
      ∃ path ∈ path?, ¬ Readable w path := by
  have fails : (∃ e, load w environment path? = .error e) ↔
      ¬ ∃ config, load w environment path? = .ok config := by
    cases load w environment path? <;> simp
  rw [fails, wellFormed.loads_iff, not_and_or, or_comm]
  push Not
  rfl

end WellFormed

end Layers

section Overrides
variable {a : Arguments}

/-- A text among the arguments replaces the one of the configuration. -/
lemma get_text_applyTo (setting : TextSetting) :
    setting.get (a.applyTo config) = (setting.given? a).getD (setting.get config) := by
  cases setting with
  | outputDir => exact (Option.getD_map Path.text _ _).symm
  | schemaDir => exact (Option.getD_map Path.text _ _).symm
  | _ => rfl

/-- A switch is on if it is among the arguments or was on before. -/
lemma get_switch_applyTo (setting : SwitchSetting) :
    setting.get (a.applyTo config) = (setting.given a || setting.get config) := by
  cases setting <;> rfl

/-- What the arguments give for a field takes its place, and every other field stays as it is. -/
lemma get_applyTo (field : Field) :
    field.get (a.applyTo config) = (field.given? a).getD (field.get config) := by
  cases field with
  | text setting =>
    rw [Field.get, Field.get, Field.given?, get_text_applyTo, Option.getD_map]
  | switch setting =>
    rw [Field.get, Field.get, Field.given?, get_switch_applyTo]
    cases setting.given a <;> rfl
  | structuredModel =>
    rw [Field.get, Field.get, Field.given?, Arguments.applyTo]
    cases a.structured.isEmpty <;> rfl

/-- To apply arguments again changes nothing. -/
lemma applyTo_applyTo : a.applyTo (a.applyTo config) = a.applyTo config := by
  refine ext_get fun field => ?_
  rw [get_applyTo, get_applyTo]
  cases field.given? a <;> rfl

end Overrides

/-- Formats that are tried from the last to the first, with a reader for documents in YAML whose
lines are a key with a word or with a mapping that has no entries. -/
@[reducible]
def shopFormats : Setting.Formats where
  order := Setting.Format.all.reverse
  complete := List.reverse_perm _
  yaml? text := (Text.split '\n' text).dropLast.mapM fun line =>
    match line.toList.splitOn ':' with
    | [key, ' ' :: word] =>
      some (String.ofList key,
        if word = ['\x7b', '\x7d'] then .table [] else .text (String.ofList word))
    | _ => none
  ini? _ := none
  ron? _ := none
  json5? _ := none

end Config

end ContentClasses
