import ContentClasses.CommandLine.Run
import ContentClasses.Proofs.SettingLayers

/-!
# One setting from two sources

A setting that comes from the environment, and the same setting as an option of the command line.
The environment guesses what kind of value a text is before it is known which field it is for, and
an option is taken as it stands; `sources_agree` says when both make the same configuration.
-/

namespace ContentClasses

open CommandLine (Arguments Valued Parameter configOf)
open Files (Workspace)

namespace CommandLine.Arguments
variable {a b : Arguments} {args more : List String} {name text : String} {option : Valued}

/-- An option that needs no further argument is read by itself. -/
lemma readAll_of_option {argument : String} (unmarked : argument ≠ "--")
    (first : a.readOption argument = .ok (b, none)) :
    readAll a (argument :: more) = readAll b more := by
  conv => lhs; unfold readAll
  rw [if_neg unmarked, first]

/-- An option that needs a value is read with the argument behind it. -/
lemma readAll_of_value {argument value : String} {between : Arguments} (unmarked : argument ≠ "--")
    (first : a.readOption argument = .ok (between, some option)) (isValue : isValue value)
    (set : between.setValue option value = .ok b) :
    readAll a (argument :: value :: more) = readAll b more := by
  conv => lhs; unfold readAll
  rw [if_neg unmarked, first]
  dsimp only
  rw [if_pos isValue, set]

/-- Arguments that are read do not depend on what follows them, unless they end with the mark for
the end of the options. -/
lemma readAll_append (unmarked : "--" ∉ args) (done : readAll a args = .ok b) :
    readAll a (args ++ more) = readAll b more := by
  fun_induction readAll a args with
  | case1 =>
    cases done
    rfl
  | case2 => exact absurd List.mem_cons_self unmarked
  | case5 a argument other between rest first ih =>
    rw [List.cons_append, readAll_of_option other first]
    exact ih (mt (List.mem_cons_of_mem _) unmarked) done
  | case6 a argument other between option value rest first isValue after set ih =>
    rw [List.cons_append, List.cons_append, readAll_of_value other first isValue set]
    exact ih (mt (List.mem_cons_of_mem _ ∘ List.mem_cons_of_mem _) unmarked) done
  | _ => cases done

/-- A long option takes what stands behind the first equals sign. -/
lemma readAll_long (plain : '=' ∉ name.toList)
    (own : Parameter.ofName? name = some (.valued option)) :
    readAll a ["--" ++ name ++ "=" ++ text] = a.setValue option text := by
  have chars : ("--" ++ name ++ "=" ++ text).toList =
      '-' :: '-' :: (name.toList ++ '=' :: text.toList) := by
    simp
  have inside : ∀ c ∈ name.toList, decide (c ≠ '=') = true :=
    fun c mem => decide_eq_true fun same => plain (same ▸ mem)
  have front : (name.toList ++ '=' :: text.toList).takeWhile (· ≠ '=') = name.toList := by
    rw [List.takeWhile_append_of_pos inside]
    simp
  have back : (name.toList ++ '=' :: text.toList).dropWhile (· ≠ '=') = '=' :: text.toList := by
    rw [List.dropWhile_append_of_pos inside]
    simp
  have unmarked : "--" ++ name ++ "=" ++ text ≠ "--" := by
    intro same
    rw [same] at chars
    simp at chars
  have read : readOption a ("--" ++ name ++ "=" ++ text) =
      (a.setValue option text).map (·, none) := by
    rw [readOption, chars]
    simp only [readLong, front, back, String.ofList_toList, own]
    cases a.setValue option text <;> rfl
  cases set : a.setValue option text with
  | ok b =>
    rw [set] at read
    rw [readAll_of_option unmarked read]
    rfl
  | error stop =>
    rw [set] at read
    unfold readAll
    rw [if_neg unmarked, read]
    rfl

end CommandLine.Arguments

namespace TextSetting
variable {setting other : TextSetting} {a : Arguments} {base config : Config} {text : String}
  {settings changed : Settings} {value : Setting}

/-- The variable of the setting. -/
def variableName : TextSetting → String
  | projectId => "MODELGEN__PROJECT_ID"
  | namespaceName => "MODELGEN__NAMESPACE"
  | outputDir => "MODELGEN__OUTPUT_DIR"
  | schemaDir => "MODELGEN__SCHEMA_DIR"
  | fileNameSuffix => "MODELGEN__FILE_NAME_SUFFIX"

/-- The name of the option for the setting. -/
def optionName : TextSetting → String
  | projectId => "project-id"
  | namespaceName => "namespace"
  | outputDir => "output-dir"
  | schemaDir => "schema-dir"
  | fileNameSuffix => "file-name-suffix"

/-- The option for the setting. -/
def option : TextSetting → Valued
  | projectId => .projectId
  | namespaceName => .namespaceName
  | outputDir => .outputDir
  | schemaDir => .schemaDir
  | fileNameSuffix => .fileNameSuffix

/-- The setting is the path of a directory. -/
def isPath : TextSetting → Bool
  | outputDir | schemaDir => true
  | _ => false

/-- The text that the arguments give for the setting. -/
def given? (a : Arguments) : TextSetting → Option String
  | projectId => a.projectId?
  | namespaceName => a.namespaceName?
  | outputDir => a.outputDir?.map Path.text
  | schemaDir => a.schemaDir?.map Path.text
  | fileNameSuffix => a.fileNameSuffix?

/-- The arguments with a text for the setting. -/
def give (a : Arguments) (text : String) : TextSetting → Arguments
  | projectId => { a with projectId? := some text }
  | namespaceName => { a with namespaceName? := some text }
  | outputDir => { a with outputDir? := some ⟨text⟩ }
  | schemaDir => { a with schemaDir? := some ⟨text⟩ }
  | fileNameSuffix => { a with fileNameSuffix? := some text }

/-- The configuration with another text for the setting. -/
def put (config : Config) (text : String) : TextSetting → Config
  | projectId => { config with projectId := text }
  | namespaceName => { config with namespaceName := text }
  | outputDir => { config with outputDir := ⟨text⟩ }
  | schemaDir => { config with schemaDir := ⟨text⟩ }
  | fileNameSuffix => { config with fileNameSuffix := text }

/-- The key of a text setting is a single name. -/
lemma stepsOfKey_key (setting : TextSetting) :
    Setting.stepsOfKey setting.key = [.name setting.key] := by
  cases setting <;> decide

/-- The variable of a text setting is that of its key. -/
lemma key?_variableName (setting : TextSetting) :
    Environment.key? setting.variableName = some setting.key := by
  cases setting <;> decide

lemma key_injective (same : other.key = setting.key) : other = setting := by
  cases other <;> cases setting <;> first | rfl | exact absurd same (by decide)

/-- To put a text changes this setting and no other. -/
lemma get_put :
    other.get (setting.put config text) = if other = setting then text else other.get config := by
  cases setting <;> cases other <;> rfl

/-- An option without a value yet takes any text, but one for a path not the empty one. -/
lemma setValue_option (none : setting.given? a = none) :
    a.setValue setting.option text =
      if setting.isPath ∧ text = "" then .error .badUsage else .ok (setting.give a text) := by
  by_cases empty : text = "" <;> cases setting <;>
    simp_all [given?, Arguments.setValue, option, Arguments.once, Arguments.pathOf, isPath, give,
      bind, Except.bind, pure, Except.pure]

lemma config?_give : (setting.give a text).config? = a.config? := by
  cases setting <;> rfl

/-- A text given as an option is put last. -/
lemma applyTo_give : (setting.give a text).applyTo base = setting.put (a.applyTo base) text := by
  cases setting <;> rfl

/-- A text that no option gives may be put before the arguments are applied or after it. -/
lemma applyTo_put (none : setting.given? a = none) :
    a.applyTo (setting.put base text) = setting.put (a.applyTo base) text := by
  cases setting <;> simp_all [given?, put, Arguments.applyTo]

lemma key_ne_listKey (setting : TextSetting) : setting.key ≠ Environment.listKey := by
  cases setting <;> decide

/-- With another value for one setting the configuration has another text for it. -/
lemma converted_put (all : Config.Converted settings config)
    (own : changed.lookup setting.key = some value) (read : value.toText? = some text)
    (same : ∀ name ≠ setting.key, changed.lookup name = settings.lookup name) :
    Config.Converted changed (setting.put config text) where
  texts other := by
    rw [get_put]
    split
    case isTrue eq =>
      rw [eq]
      exact Config.fieldOf_of_lookup own read
    case isFalse ne =>
      rw [Config.fieldOf_congr (same _ (mt key_injective ne))]
      exact all.texts other
  switches switch := by
    have ne : switch.key ≠ setting.key := by cases switch <;> cases setting <;> decide
    rw [Config.fieldOf_congr (same _ ne), all.switches switch]
    cases setting <;> rfl
  structuredModel := by
    have ne : "structured_model" ≠ setting.key := setting.key_ne_listKey.symm
    rw [Config.fieldOf_congr (same _ ne), all.structuredModel]
    cases setting <;> rfl

end TextSetting

lemma SwitchSetting.key_ne_listKey (setting : SwitchSetting) :
    setting.key ≠ Environment.listKey := by
  cases setting <;> decide

/-- With another list of names the configuration has that list. -/
lemma Config.converted_names {settings changed : Settings} {config : Config} {names : List String}
    (all : Converted settings config)
    (own : changed.lookup Environment.listKey = some (.list (names.map .text)))
    (same : ∀ name ≠ Environment.listKey, changed.lookup name = settings.lookup name) :
    Converted changed { config with structuredModel := names } where
  texts setting := by
    rw [fieldOf_congr (same _ setting.key_ne_listKey), all.texts setting]
    cases setting <;> rfl
  switches setting := by
    rw [fieldOf_congr (same _ setting.key_ne_listKey), all.switches setting]
    cases setting <;> rfl
  structuredModel := fieldOf_of_lookup own (Setting.toTexts?_texts names)

namespace Environment
variable {front back environment : Environment} {name key text field : String}

/-- No variable sets the field or something inside it. -/
def Leaves (environment : Environment) (field : String) : Prop :=
  ∀ entry ∈ environment, ∀ key, key? entry.1 = some key →
    Setting.fieldOfKey key ≠ some field

/-- Variables that leave a field leave it to the layers below. -/
lemma after_leaves (leaves : environment.Leaves field) (value? : Option Setting) :
    Settings.after field value? environment.settings = value? := by
  refine Settings.after_others fun setting mem => ?_
  obtain ⟨entry, there, given⟩ := List.mem_filterMap.mp mem
  obtain ⟨key, sets, rfl⟩ := Option.map_eq_some_iff.mp given
  exact leaves entry there key sets

lemma settings_append : settings (front ++ back) = settings front ++ settings back :=
  List.filterMap_append

/-- A variable between others gives its setting between theirs. -/
lemma settings_insert (sets : key? name = some key) :
    settings (front ++ (name, text) :: back) =
      settings front ++ (key, settingOf key text) :: settings back := by
  have own : settings ((name, text) :: back) = (key, settingOf key text) :: settings back := by
    refine List.filterMap_cons_some ?_
    dsimp only
    rw [sets]
    rfl
  rw [settings_append, own]

lemma settingOf_ne_table (entries : List (String × Setting)) :
    settingOf key text ≠ .table entries := by
  simp only [settingOf]
  repeat' split
  all_goals nofun

/-- One more variable hides no other. -/
lemma lookup_insert {other : String} (ne : other ≠ name) :
    List.lookup other (front ++ (name, text) :: back) = List.lookup other (front ++ back) := by
  rw [List.lookup_append, List.lookup_append, List.lookup_cons, beq_eq_false_iff_ne.mpr ne]

/-- The file of the user is named by two variables. -/
lemma userFile?_insert (first : "XDG_CONFIG_HOME" ≠ name) (second : "HOME" ≠ name) :
    Config.userFile? (front ++ (name, text) :: back) = Config.userFile? (front ++ back) := by
  unfold Config.userFile? Config.userDirectory? Config.valueOf?
  rw [lookup_insert first, lookup_insert second]

/-- A variable for a field that nothing else in the environment sets gives the field its value, and
leaves the others. -/
lemma layers_insert [Setting.Formats] {w : Workspace} {path? : Option Path}
    {layers : List Settings}
    (done : Config.layers w (front ++ back) path? = .ok layers)
    (user : Config.userFile? (front ++ (name, text) :: back) = Config.userFile? (front ++ back))
    (sets : key? name = some field) (own : Setting.stepsOfKey field = [.name field])
    (leaves : back.Leaves field) :
    ∃ changed, Config.layers w (front ++ (name, text) :: back) path? = .ok changed ∧
      (Config.merged changed).lookup field = some (settingOf field text) ∧
      ∀ other ≠ field,
        (Config.merged changed).lookup other = (Config.merged layers).lookup other := by
  obtain ⟨lower, rfl, changed⟩ := Config.layers_congr user done
  have inserted : settings (front ++ (name, text) :: back) =
      settings front ++ (field, settingOf field text) :: settings back := settings_insert sets
  refine ⟨_, changed, ?_, fun other ne => ?_⟩
  · rw [Config.lookup_merged_concat, inserted, Settings.after_append,
      Settings.after_cons, Setting.after_own own settingOf_ne_table, after_leaves leaves]
  · have elsewhere : Setting.fieldOfKey field ≠ some other := by
      rw [Setting.fieldOfKey, own]
      exact fun same => ne (Option.some.inj same).symm
    rw [Config.lookup_merged_concat, Config.lookup_merged_concat, inserted,
      Settings.after_append, Settings.after_cons, Setting.after_other elsewhere, settings_append]
    exact Settings.after_append.symm

end Environment

/-- The configuration that a command line works with. -/
def MadeBy [Setting.Formats] (args : List String) (environment : Environment) (w : Workspace)
    (config : Config) : Prop :=
  ∃ a, Arguments.ofList args = .ok a ∧ configOf a environment w = .ok config

/-- The option with a text in the same argument. -/
def optionOf (name text : String) : String :=
  "--" ++ name ++ "=" ++ text

section Sources
variable {args : List String} {a : Arguments} {front back : Environment} {w : Workspace}
  {config other : Config} {name : String}

/-- The configuration of a command line is the one that is loaded, with the arguments applied to
it. -/
lemma configOf_eq_ok [Setting.Formats] {environment : Environment} :
    configOf a environment w = .ok config ↔
      ∃ base, Config.load w environment (a.config?.map Path.mk) = .ok base ∧
        a.applyTo base = config := by
  rw [configOf]
  cases Config.load w environment (a.config?.map Path.mk) <;> simp [Except.map]

lemma MadeBy.eq [Setting.Formats] {environment : Environment}
    (first : MadeBy args environment w config)
    (second : MadeBy args environment w other) : config = other := by
  obtain ⟨a, read, done⟩ := first
  obtain ⟨b, again, done_again⟩ := second
  cases read.symm.trans again
  exact Except.ok.inj (done.symm.trans done_again)

/-- One more option is read behind the others. -/
lemma ofList_option (read : Arguments.ofList args = .ok a) (unmarked : "--" ∉ args)
    {option : Valued} {text : String} (plain : '=' ∉ name.toList)
    (own : Parameter.ofName? name = some (.valued option)) :
    Arguments.ofList (args ++ [optionOf name text]) = a.setValue option text := by
  rw [Arguments.ofList, Arguments.readAll_append unmarked read]
  exact Arguments.readAll_long plain own

namespace TextSetting
variable {setting : TextSetting} {text own : String}

/-- The name of an option of a text setting is that of its parameter. -/
lemma ofName?_optionName (setting : TextSetting) :
    Parameter.ofName? setting.optionName = some (.valued setting.option) := by
  cases setting <;> rfl

lemma equals_notMem_optionName (setting : TextSetting) : '=' ∉ setting.optionName.toList := by
  cases setting <;> decide

/-- The place of the file of the user does not depend on variables of settings. -/
lemma userFile?_variable (setting : TextSetting) :
    Config.userFile? (front ++ (setting.variableName, text) :: back) =
      Config.userFile? (front ++ back) := by
  refine Environment.userFile?_insert ?_ ?_ <;> cases setting <;> decide

/-- Whatever text a variable has, its value has a text for a field that is no list. -/
lemma exists_text (setting : TextSetting) (text : String) :
    ∃ own, (Environment.settingOf setting.key text).toText? = some own := by
  simp only [Environment.settingOf, if_neg setting.key_ne_listKey]
  repeat' split
  all_goals exact ⟨_, rfl⟩

/-- The variable of the setting gives it the text of the value that its own text is read as. -/
lemma madeBy_variable [Setting.Formats] (read : Arguments.ofList args = .ok a)
    (none : setting.given? a = none)
    (leaves : Environment.Leaves (front ++ back) setting.key)
    (done : configOf a (front ++ back) w = .ok config)
    (value : (Environment.settingOf setting.key text).toText? = some own) :
    MadeBy args (front ++ (setting.variableName, text) :: back) w (setting.put config own) := by
  obtain ⟨base, loaded, rfl⟩ := configOf_eq_ok.mp done
  obtain ⟨layers, layers_read, converted⟩ := Config.load_eq_ok.mp loaded
  have later : Environment.Leaves back setting.key :=
    fun entry mem => leaves entry (List.mem_append_right front mem)
  obtain ⟨changed, changed_read, found, same⟩ := Environment.layers_insert layers_read
    setting.userFile?_variable setting.key?_variableName setting.stepsOfKey_key later
  refine ⟨a, read, configOf_eq_ok.mpr ⟨setting.put base own, ?_, applyTo_put none⟩⟩
  exact Config.load_eq_ok.mpr ⟨changed, changed_read, converted_put converted found value same⟩

/-- The option for the setting gives it its text. An empty path is refused. -/
lemma madeBy_option [Setting.Formats] (read : Arguments.ofList args = .ok a)
    (unmarked : "--" ∉ args)
    (none : setting.given? a = none) (done : configOf a (front ++ back) w = .ok config) :
    MadeBy (args ++ [optionOf setting.optionName text]) (front ++ back) w other ↔
      ¬(setting.isPath ∧ text = "") ∧ other = setting.put config text := by
  rw [MadeBy, ofList_option read unmarked setting.equals_notMem_optionName
    setting.ofName?_optionName, setValue_option none]
  obtain ⟨base, loaded, rfl⟩ := configOf_eq_ok.mp done
  have given : configOf (setting.give a text) (front ++ back) w =
      .ok (setting.put (a.applyTo base) text) := by
    refine configOf_eq_ok.mpr ⟨base, ?_, applyTo_give⟩
    rw [config?_give]
    exact loaded
  split
  case isTrue refused =>
    exact iff_of_false (fun ⟨_, eq, _⟩ => nomatch eq) fun taken => taken.1 refused
  case isFalse taken =>
    constructor
    · rintro ⟨_, eq, made⟩
      cases eq
      exact ⟨taken, Except.ok.inj (made.symm.trans given)⟩
    · rintro ⟨-, rfl⟩
      exact ⟨_, rfl, given⟩

end TextSetting

/-- The names of structured kinds. -/
def kindNames : List String :=
  ["True", "true", "All", "all", "RichText", "rich_text", "DateTime", "date_time",
    "ModularContent", "modular_content", "LinkedItems", "linked_items"]

/-- A name that is known and not empty is in the list of names. -/
lemma mem_kindNames (known : (StructuredKinds.ofWord? name).isSome) (full : name ≠ "") :
    name ∈ kindNames := by
  unfold StructuredKinds.ofWord? at known
  split at known <;> simp_all [kindNames]

/-- The names of structured kinds have no comma and start with one of a few letters. -/
lemma kindNames_spelling : ∀ name ∈ kindNames, ',' ∉ name.toList ∧
    ∃ c ∈ name.toList.head?, c ∈ "TtAaRrDdMmLl".toList := by
  have all : ∀ name ∈ kindNames, ',' ∉ name.toList ∧
      name.toList.head?.any ("TtAaRrDdMmLl".toList.contains ·) := by decide
  intro name known
  obtain ⟨plain, first⟩ := all name known
  obtain ⟨c, head, letter⟩ := (Option.any_eq_true _ _).mp first
  exact ⟨plain, c, head, List.contains_iff_mem.mp letter⟩

/-- A comma stands between the first of several names and the others. -/
lemma toList_intercalate_cons_cons {next : String} {names : List String} :
    (",".intercalate (name :: next :: names)).toList =
      name.toList ++ ',' :: (",".intercalate (next :: names)).toList := by
  rw [String.intercalate_cons_cons, String.toList_append, String.toList_append, List.append_assoc]
  rfl

/-- Names without the separator are found again in their joined text. -/
lemma split_intercalate {names : List String} (full : names ≠ [])
    (plain : ∀ name ∈ names, ',' ∉ name.toList) :
    Text.split ',' (",".intercalate names) = names := by
  have chars : (",".intercalate names).toList = [','].intercalate (names.map String.toList) := by
    rw [String.toList_intercalate]
    rfl
  rw [Text.split, chars, List.splitOn_intercalate ',' (List.forall_mem_map.mpr plain) (by simpa),
    List.map_map, String.ofList_comp_toList, List.map_id]

/-- A text that starts with one of those letters is no number. -/
lemma not_number {text : String} {c : Char} {cs : List Char} (first : text.toList = c :: cs)
    (letter : c ∈ "TtAaRrDdMmLl".toList) :
    Numeral.integer? text = none ∧ Numeral.float? text = none := by
  have apart : "TtAaRrDdMmLl".toList.all fun c => c ≠ '+' ∧ c ≠ '-' ∧ c.isDigit = false ∧ c ≠ '.' ∧
      ¬(c = 'e' ∨ c = 'E') ∧ c.toLower ≠ 'i' ∧ c.toLower ≠ 'n' := by decide
  obtain ⟨plus, minus, digit, point, mark, infinite, nan⟩ :=
    of_decide_eq_true (List.all_eq_true.mp apart c letter)
  -- No number starts with the letter, whether with a sign, a digit, a point or as a word.
  have unsigned : Numeral.sign (c :: cs) = (false, c :: cs) := by
    rw [Numeral.sign]
    · exact fun _ eq => plus (List.cons.inj eq).1
    · exact fun _ eq => minus (List.cons.inj eq).1
  have noDigits : Numeral.digits? (c :: cs) = none := by
    rw [Numeral.digits?, List.all_cons, digit]
    rfl
  have word (other : String) (d : Char) (ds : List Char) (starts : other.toList = d :: ds)
      (ne : c.toLower ≠ d) : String.ofList ((c :: cs).map Char.toLower) ≠ other := by
    intro same
    rw [← same, String.toList_ofList, List.map_cons] at starts
    exact ne (List.cons.inj starts).1
  have noPoint (ds : List Char) : Numeral.point? (c :: ds) = none := by
    have stays : (c :: ds).dropWhile Char.isDigit = c :: ds :=
      List.dropWhile_cons_of_neg (by simp [digit])
    rw [Numeral.point?, stays]
    split
    case h_1 none => cases none
    case h_2 dot => exact absurd (List.cons.inj dot).1 point
    case h_3 => rfl
  constructor
  · simp only [Numeral.integer?, first, unsigned, noDigits]
    rfl
  · have noDecimal : Numeral.decimal? false (c :: cs) = none := by
      have starts : (c :: cs).takeWhile (fun c => ¬(c = 'e' ∨ c = 'E')) =
          c :: cs.takeWhile fun c => ¬(c = 'e' ∨ c = 'E') :=
        List.takeWhile_cons_of_pos (decide_eq_true mark)
      simp only [Numeral.decimal?, starts, noPoint]
      rfl
    simp only [Numeral.float?, first, unsigned, noDecimal]
    rw [if_neg, if_neg (word "nan" 'n' _ rfl nan)]
    · rfl
    · exact not_or.mpr ⟨word "inf" 'i' _ rfl infinite, word "infinity" 'i' _ rfl infinite⟩

/-- The joined names of structured kinds are read as a list, but for the two that are the one word
of a truth value. -/
lemma settingOf_kindNames {names : List String} (full : names ≠ [])
    (known : ∀ name ∈ names, name ∈ kindNames) (first : names ≠ ["True"])
    (second : names ≠ ["true"]) :
    Environment.settingOf Environment.listKey (",".intercalate names) =
      .list (names.map .text) := by
  have parts := split_intercalate full fun name mem => (kindNames_spelling name (known name mem)).1
  obtain ⟨no_truth, starts⟩ : (∀ word ∈ ["true", "false"],
        Setting.lowercase (",".intercalate names) ≠ word) ∧
      ∃ c cs, (",".intercalate names).toList = c :: cs ∧ c ∈ "TtAaRrDdMmLl".toList := by
    cases names with
    | nil => exact absurd rfl full
    | cons name names =>
      obtain ⟨-, c, head, letter⟩ := kindNames_spelling name (known name List.mem_cons_self)
      obtain ⟨cs, own⟩ := List.head?_eq_some_iff.mp head
      cases names with
      | nil =>
        rw [String.intercalate_singleton]
        refine ⟨?_, c, cs, own, letter⟩
        have words : ∀ name ∈ kindNames, [name] ≠ ["True"] → [name] ≠ ["true"] →
            ∀ word ∈ ["true", "false"], Setting.lowercase name ≠ word := by decide
        exact words name (known name List.mem_cons_self) first second
      | cons next names =>
        refine ⟨fun word mem same => ?_, c, cs ++ ',' :: (",".intercalate (next :: names)).toList,
          ?_, letter⟩
        · -- The text has a comma, and no word of a truth value has one.
          have comma : ',' ∈ word.toList := by
            rw [← same, Setting.lowercase, String.toList_ofList, toList_intercalate_cons_cons,
              List.map_append, List.map_cons]
            exact List.mem_append_right _ List.mem_cons_self
          have plain : ∀ word ∈ ["true", "false"], ',' ∉ word.toList := by decide
          exact plain word mem comma
        · rw [toList_intercalate_cons_cons, own]
          rfl
  obtain ⟨c, cs, own, letter⟩ := starts
  obtain ⟨noInteger, noFloat⟩ := not_number own letter
  rw [List.forall_mem_cons, List.forall_mem_singleton] at no_truth
  simp only [Environment.settingOf, if_neg no_truth.1, if_neg no_truth.2, noInteger, noFloat, parts,
    if_true]

/-- Known names make options. -/
lemma exists_ofNames {names : List String} (known : ∀ name ∈ names, name ∈ kindNames) :
    ∃ kinds, StructuredKinds.ofNames names = .ok kinds := by
  have one : ∀ name ∈ kindNames, (StructuredKinds.ofName name).isOk := by decide
  induction names with
  | nil => exact ⟨_, rfl⟩
  | cons name names ih =>
    rw [List.forall_mem_cons] at known
    obtain ⟨others, done⟩ := ih known.2
    have first := one name known.1
    cases own : StructuredKinds.ofName name with
    | error failure =>
      rw [own] at first
      cases first
    | ok kinds =>
      refine ⟨kinds ∪ others, ?_⟩
      rw [StructuredKinds.ofNames, own, done]
      rfl

section StructuredKinds
variable {names : List String} (full : names ≠ []) (known : ∀ name ∈ names, name ∈ kindNames)
  (none : a.structured = [])
include full known none

/-- The variable of the list sets it to the names, unless it is one word of a truth value. -/
lemma madeBy_structured_variable [Setting.Formats] (read : Arguments.ofList args = .ok a)
    (leaves : Environment.Leaves (front ++ back) Environment.listKey)
    (done : configOf a (front ++ back) w = .ok config) (first : names ≠ ["True"])
    (second : names ≠ ["true"]) :
    MadeBy args (front ++ ("MODELGEN__STRUCTURED_MODEL", ",".intercalate names) :: back) w
      { config with structuredModel := names } := by
  obtain ⟨base, loaded, rfl⟩ := configOf_eq_ok.mp done
  obtain ⟨layers, layers_read, converted⟩ := Config.load_eq_ok.mp loaded
  have later : Environment.Leaves back Environment.listKey :=
    fun entry mem => leaves entry (List.mem_append_right front mem)
  have user (text : String) :
      Config.userFile? (front ++ ("MODELGEN__STRUCTURED_MODEL", text) :: back) =
        Config.userFile? (front ++ back) := Environment.userFile?_insert (by decide) (by decide)
  have sets : Environment.key? "MODELGEN__STRUCTURED_MODEL" = some Environment.listKey := by decide
  obtain ⟨changed, changed_read, found, same⟩ :=
    Environment.layers_insert layers_read (user _) sets (by decide) later
  rw [settingOf_kindNames full known first second] at found
  refine ⟨a, read, configOf_eq_ok.mpr ⟨{ base with structuredModel := names }, ?_, ?_⟩⟩
  · exact Config.load_eq_ok.mpr
      ⟨changed, changed_read, Config.converted_names converted found same⟩
  · rw [Arguments.applyTo, Arguments.applyTo, none]
    rfl

/-- The option for the list sets it to the names. -/
lemma madeBy_structured_option [Setting.Formats] (read : Arguments.ofList args = .ok a)
    (unmarked : "--" ∉ args)
    (done : configOf a (front ++ back) w = .ok config) :
    MadeBy (args ++ [optionOf "structured" (",".intercalate names)]) (front ++ back) w
      { config with structuredModel := names } := by
  have parts := split_intercalate full fun name mem => (kindNames_spelling name (known name mem)).1
  obtain ⟨base, loaded, rfl⟩ := configOf_eq_ok.mp done
  refine ⟨{ a with structured := names }, ?_, configOf_eq_ok.mpr ⟨base, loaded, ?_⟩⟩
  · rw [ofList_option read unmarked (by decide) rfl, Arguments.setValue, none, parts]
    rfl
  · rw [Arguments.applyTo, Arguments.applyTo, if_neg (mt List.isEmpty_iff.mp full)]

end StructuredKinds

/-- A setting from the environment and as an option, over any other arguments, variables and files
with which there is a configuration. For a text both make the same configuration exactly when the
value that the environment reads the text as has that text, and no path is empty. For a list of
names of structured kinds they do, and the options can be made of it, unless the list is one word of
a truth value. -/
theorem sources_agree [Setting.Formats] (read : Arguments.ofList args = .ok a)
    (unmarked : "--" ∉ args)
    (done : configOf a (front ++ back) w = .ok config) :
    (∀ setting : TextSetting, setting.given? a = none →
      Environment.Leaves (front ++ back) setting.key → ∀ text,
        (∃ c, MadeBy args (front ++ (setting.variableName, text) :: back) w c ∧
          MadeBy (args ++ [optionOf setting.optionName text]) (front ++ back) w c) ↔
        (Environment.settingOf setting.key text).toText? = some text ∧
          ¬(setting.isPath ∧ text = "")) ∧
    (a.structured = [] → Environment.Leaves (front ++ back) Environment.listKey →
      ∀ names, names ≠ [] →
        (∀ name ∈ names, name ≠ "" ∧ (StructuredKinds.ofWord? name).isSome) →
        names ≠ ["True"] → names ≠ ["true"] →
        ∃ c options, MadeBy args
            (front ++ ("MODELGEN__STRUCTURED_MODEL", ",".intercalate names) :: back) w c ∧
          MadeBy (args ++ [optionOf "structured" (",".intercalate names)]) (front ++ back) w c ∧
          c.options = .ok options) := by
  constructor
  · intro setting none leaves text
    obtain ⟨own, value⟩ := setting.exists_text text
    have made := TextSetting.madeBy_variable read none leaves done value
    constructor
    · rintro ⟨c, first, second⟩
      obtain ⟨taken, rfl⟩ := (TextSetting.madeBy_option read unmarked none done).mp second
      refine ⟨?_, taken⟩
      -- The text of the setting in the one configuration is that in the other.
      have same := congrArg (fun c => setting.get c) (first.eq made)
      rw [TextSetting.get_put, TextSetting.get_put, if_pos rfl, if_pos rfl] at same
      rw [value, same]
    · rintro ⟨same, taken⟩
      cases value.symm.trans same
      exact ⟨_, made, (TextSetting.madeBy_option read unmarked none done).mpr ⟨taken, rfl⟩⟩
  · intro none leaves names full each first second
    have known : ∀ name ∈ names, name ∈ kindNames := fun name mem =>
      mem_kindNames (each name mem).2 (each name mem).1
    obtain ⟨kinds, named⟩ := exists_ofNames known
    refine ⟨_,
      { dialect := config.dialect, structured := kinds, typedLinks := config.extendedModels },
      madeBy_structured_variable full known none read leaves done first second,
      madeBy_structured_option full known none read unmarked done, ?_⟩
    rw [Config.options, named]
    rfl

end Sources

/-- In an empty directory, a project and a list of one kind may come from either source. -/
theorem shop_sources_agree :
    let w : Workspace := ⟨.emptyDir, []⟩
    Arguments.ofList ["--management"] = .ok { management := true } ∧
      "--" ∉ ["--management"] ∧
      configOf { management := true } [("HOME", "/home/shop")] w = .ok { managementApi := true } ∧
      (∃ c, MadeBy ["--management"] [("HOME", "/home/shop"), ("MODELGEN__PROJECT_ID", "shop")] w c ∧
        MadeBy ["--management", "--project-id=shop"] [("HOME", "/home/shop")] w c) ∧
      ∃ c options,
        MadeBy ["--management"]
          [("HOME", "/home/shop"), ("MODELGEN__STRUCTURED_MODEL", "All")] w c ∧
        MadeBy ["--management", "--structured=All"] [("HOME", "/home/shop")] w c ∧
        c.options = .ok options := by
  intro w
  have read : Arguments.ofList ["--management"] = .ok { management := true } := by decide +kernel
  have unmarked : "--" ∉ ["--management"] := by decide +kernel
  have done : configOf { management := true } ([("HOME", "/home/shop")] ++ []) w =
      .ok { managementApi := true } := by decide +kernel
  have leaves (field : String) : Environment.Leaves ([("HOME", "/home/shop")] ++ []) field := by
    intro entry mem key sets
    rw [List.mem_singleton.mp mem] at sets
    exact absurd sets (by rw [show Environment.key? "HOME" = none by decide +kernel]; nofun)
  obtain ⟨texts, names⟩ := sources_agree read unmarked done
  refine ⟨read, unmarked, done, ?_, ?_⟩
  · exact (texts .projectId rfl (leaves _) "shop").mpr (by decide +kernel)
  · exact names rfl (leaves _) ["All"] (by decide +kernel) (by decide +kernel) (by decide +kernel)
      (by decide +kernel)

/-- The environment takes a text that reads as a number for the number, and knows no list that is
one word of a truth value; the command line refuses an empty path. -/
theorem sources_disagree :
    let w : Workspace := ⟨.emptyDir, []⟩
    (MadeBy [] [("MODELGEN__PROJECT_ID", "007")] w { projectId := "7" } ∧
        MadeBy ["--project-id=007"] [] w { projectId := "007" }) ∧
      (MadeBy [] [("MODELGEN__OUTPUT_DIR", "")] w { outputDir := ⟨""⟩ } ∧
        ∀ c, ¬ MadeBy ["--output-dir="] [] w c) ∧
      (∀ c, ¬ MadeBy [] [("MODELGEN__STRUCTURED_MODEL", "True")] w c) ∧
        MadeBy ["--structured=True"] [] w { structuredModel := ["True"] } ∧
        (Config.options { structuredModel := ["True"] }).isOk := by
  intro w
  have loaded : Config.load w [] none = .ok {} := by decide +kernel
  have base : configOf {} ([] ++ []) w = .ok {} := configOf_eq_ok.mpr ⟨{}, loaded, rfl⟩
  have read : Arguments.ofList [] = .ok {} := rfl
  have leaves (field : String) : Environment.Leaves ([] ++ []) field :=
    fun _ mem => absurd mem List.not_mem_nil
  have number : MadeBy [] ([] ++ (TextSetting.projectId.variableName, "007") :: []) w
      (TextSetting.projectId.put {} "7") :=
    TextSetting.madeBy_variable read rfl (leaves _) base (by decide +kernel)
  have empty : MadeBy [] ([] ++ (TextSetting.outputDir.variableName, "") :: []) w
      (TextSetting.outputDir.put {} "") :=
    TextSetting.madeBy_variable read rfl (leaves _) base (by decide +kernel)
  have option (a : Arguments) (same : a.config? = none) : configOf a [] w = .ok (a.applyTo {}) := by
    refine configOf_eq_ok.mpr ⟨{}, ?_, rfl⟩
    rw [same]
    exact loaded
  refine ⟨⟨number, ?_⟩, ⟨empty, ?_⟩, ?_, ?_, by decide⟩
  · exact ⟨{ projectId? := some "007" }, by decide, option _ rfl⟩
  · rintro c ⟨a, refused, -⟩
    have usage : Arguments.ofList ["--output-dir="] = .error .badUsage := by decide
    rw [usage] at refused
    cases refused
  · rintro c ⟨a, taken, made⟩
    cases taken
    have failed : configOf {} [("MODELGEN__STRUCTURED_MODEL", "True")] w =
        .error (.settings (.wrongType "structured_model")) := by decide +kernel
    rw [failed] at made
    cases made
  · exact ⟨{ structured := ["True"] }, by decide, option _ rfl⟩

end ContentClasses
