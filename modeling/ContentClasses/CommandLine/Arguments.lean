import ContentClasses.Config.Basic

/-!
# Arguments of the command line

Options take a value or none. A value stands behind the option, in the next argument or in the same
one; one letter options without a value may stand together. No option may be repeated but the one
for structured kinds.
-/

namespace ContentClasses.CommandLine

/-- The options that take a value. -/
inductive Valued where
  | config
  | schemaDir
  | outputDir
  | namespaceName
  | projectId
  | fileNameSuffix
  | structured
deriving DecidableEq, Repr

/-- The options without a value. -/
inductive Switch where
  | management
  | extended
  | withTypeProvider
  | dryRun
  | verbose
  | help
deriving DecidableEq, Repr

/-- An option. -/
inductive Parameter where
  | valued (v : Valued)
  | switch (s : Switch)
deriving DecidableEq, Repr

/-- The option of a long name. -/
def Parameter.ofName? : String → Option Parameter
  | "config" => some (.valued .config)
  | "schema-dir" => some (.valued .schemaDir)
  | "output-dir" => some (.valued .outputDir)
  | "namespace" => some (.valued .namespaceName)
  | "project-id" => some (.valued .projectId)
  | "file-name-suffix" => some (.valued .fileNameSuffix)
  | "structured" => some (.valued .structured)
  | "management" => some (.switch .management)
  | "extended" => some (.switch .extended)
  | "with-type-provider" => some (.switch .withTypeProvider)
  | "dry-run" => some (.switch .dryRun)
  | "verbose" => some (.switch .verbose)
  | "help" => some (.switch .help)
  | _ => none

/-- The option of one letter. -/
def Parameter.ofLetter? : Char → Option Parameter
  | 'c' => some (.valued .config)
  | 's' => some (.valued .schemaDir)
  | 'o' => some (.valued .outputDir)
  | 'n' => some (.valued .namespaceName)
  | 'p' => some (.valued .projectId)
  | 'v' => some (.switch .verbose)
  | 'h' => some (.switch .help)
  | _ => none

/-- Why no run is made: help is asked for, or the arguments are wrong. -/
inductive Stop where
  | help
  | badUsage
deriving DecidableEq, Repr

/-- What the arguments say. -/
structure Arguments where
  config? : Option String := none
  schemaDir? : Option Path := none
  outputDir? : Option Path := none
  namespaceName? : Option String := none
  projectId? : Option String := none
  fileNameSuffix? : Option String := none
  structured : List String := []
  management : Bool := false
  extended : Bool := false
  withTypeProvider : Bool := false
  dryRun : Bool := false
  verbose : Bool := false
deriving DecidableEq, Repr

namespace Arguments

/-- The value of an option that has none yet. -/
def once {α : Type} (old? : Option α) (value : α) : Except Stop (Option α) :=
  match old? with
  | none => .ok (some value)
  | some _ => .error .badUsage

/-- The path that an argument gives. It may not be empty. -/
def pathOf (text : String) : Except Stop Path :=
  if text = "" then .error .badUsage else .ok ⟨text⟩

/-- Takes the value of an option. -/
def setValue (a : Arguments) (v : Valued) (text : String) : Except Stop Arguments := do
  match v with
  | .config => return { a with config? := ← once a.config? text }
  | .schemaDir => return { a with schemaDir? := ← once a.schemaDir? (← pathOf text) }
  | .outputDir => return { a with outputDir? := ← once a.outputDir? (← pathOf text) }
  | .namespaceName => return { a with namespaceName? := ← once a.namespaceName? text }
  | .projectId => return { a with projectId? := ← once a.projectId? text }
  | .fileNameSuffix => return { a with fileNameSuffix? := ← once a.fileNameSuffix? text }
  | .structured => return { a with structured := a.structured ++ Text.split ',' text }

/-- Turns on what is off. -/
def turnOn (old : Bool) : Except Stop Bool :=
  if old then .error .badUsage else .ok true

/-- Takes an option without a value. -/
def setSwitch (a : Arguments) (s : Switch) : Except Stop Arguments := do
  match s with
  | .management => return { a with management := ← turnOn a.management }
  | .extended => return { a with extended := ← turnOn a.extended }
  | .withTypeProvider => return { a with withTypeProvider := ← turnOn a.withTypeProvider }
  | .dryRun => return { a with dryRun := ← turnOn a.dryRun }
  | .verbose => return { a with verbose := ← turnOn a.verbose }
  | .help => throw .help

/-- Takes an option with a long name, which has its value behind an equals sign if anywhere in the
same argument. The answer names the option whose value is still missing. -/
def readLong (a : Arguments) (text : List Char) : Except Stop (Arguments × Option Valued) := do
  let name := String.ofList (text.takeWhile (· ≠ '='))
  match Parameter.ofName? name, text.dropWhile (· ≠ '=') with
  | some (.valued v), [] => return (a, some v)
  | some (.valued v), _ :: value => return (← a.setValue v (String.ofList value), none)
  | some (.switch s), [] => return (← a.setSwitch s, none)
  | _, _ => throw .badUsage

/-- Takes options of one letter. What stands behind one with a value is its value; an equals sign in
front of it does not count. The answer names the option whose value is still missing. -/
def readLetters (a : Arguments) : List Char → Except Stop (Arguments × Option Valued)
  | [] => .ok (a, none)
  | letter :: rest =>
    match Parameter.ofLetter? letter with
    | none => .error .badUsage
    | some (.switch s) => do readLetters (← a.setSwitch s) rest
    | some (.valued v) => do
      match rest with
      | [] => return (a, some v)
      | '=' :: value => return (← a.setValue v (String.ofList value), none)
      | value => return (← a.setValue v (String.ofList value), none)

/-- Takes one argument that is an option. -/
def readOption (a : Arguments) (argument : String) : Except Stop (Arguments × Option Valued) :=
  match argument.toList with
  | '-' :: '-' :: text => a.readLong text
  | '-' :: letter :: letters => a.readLetters (letter :: letters)
  | _ => .error .badUsage

/-- An argument that can be the value of the option before it. -/
def isValue (argument : String) : Bool :=
  argument = "-" || argument.toList.head? ≠ some '-'

/-- Takes all arguments. A mark for the end of the options may be the last. -/
def readAll (a : Arguments) : List String → Except Stop Arguments
  | [] => .ok a
  | argument :: rest =>
    if argument = "--" then if rest.isEmpty then .ok a else .error .badUsage
    else
      match a.readOption argument, rest with
      | .error stop, _ => .error stop
      | .ok (a, none), rest => readAll a rest
      | .ok (a, some v), value :: rest =>
        if isValue value then
          match a.setValue v value with
          | .ok a => readAll a rest
          | .error stop => .error stop
        else .error .badUsage
      | .ok (_, some _), [] => .error .badUsage

/-- What a list of arguments says. -/
def ofList (arguments : List String) : Except Stop Arguments :=
  readAll {} arguments

/-- The configuration with what the arguments say in place of what it says. Switches turn things on
and never off. -/
def applyTo (a : Arguments) (config : Config) : Config :=
  { projectId := a.projectId?.getD config.projectId
    namespaceName := a.namespaceName?.getD config.namespaceName
    outputDir := a.outputDir?.getD config.outputDir
    schemaDir := a.schemaDir?.getD config.schemaDir
    fileNameSuffix := a.fileNameSuffix?.getD config.fileNameSuffix
    managementApi := a.management || config.managementApi
    extendedModels := a.extended || config.extendedModels
    structuredModel := if a.structured.isEmpty then config.structuredModel else a.structured
    withTypeProvider := a.withTypeProvider || config.withTypeProvider }

end Arguments

end ContentClasses.CommandLine
