import ContentClasses.CommandLine.Arguments
import ContentClasses.Config.Layers
import ContentClasses.Generation

/-!
# Runs of the command line

What a command line does: it loads the configuration, puts its arguments over it, and makes the run.
Warnings and errors go to the error stream, the paths and a summary to the output.
-/

namespace ContentClasses.CommandLine

open Files (Workspace)
open Setting (Formats)

/-- How a command line ended. -/
inductive Ending where
  | stopped (stop : Stop)
  | notLoaded (e : Error)
  | notGenerated (e : Error)
  | done (report : Report) (dryRun : Bool)
deriving DecidableEq, Repr

/-- What is printed when help is asked for. -/
def helpLines : List String :=
  ["Generate strongly typed models from content type schemas",
    "",
    "Usage: model-generator [OPTIONS]",
    "",
    "Options:",
    "  -c, --config <FILE>             Configuration file",
    "  -s, --schema-dir <DIR>          Directory with types/ and snippets/ schema documents",
    "  -o, --output-dir <DIR>          Output directory",
    "  -n, --namespace <NAME>          Namespace of generated classes",
    "  -p, --project-id <ID>           Project id, used in diagnostics",
    "      --file-name-suffix <TEXT>   Suffix of generated file names",
    "      --management                Generate management models",
    "      --extended                  Generate typed linked item variants",
    "      --structured <NAMES>        Structured kinds, separated by commas",
    "      --with-type-provider        Also generate a type provider",
    "      --dry-run                   Render without writing files",
    "  -v, --verbose                   Verbose logging",
    "  -h, --help                      Print help"]

/-- What is printed when the arguments are wrong. -/
def usageLines : List String :=
  ["error: unexpected arguments", "", "For more information, try '--help'."]

/-- The summary of a run. -/
def summary (report : Report) (dryRun : Bool) : String :=
  "Generated " ++ toString report.contentTypes ++ " content type(s) into " ++
    toString report.paths.length ++ " file(s)" ++ if dryRun then " (dry run)" else ""

/-- The line with a warning. -/
def warningLine (d : Diagnostic) : String :=
  "warning[" ++ d.code.text ++ "]: " ++ d.message

namespace Ending

/-- The exit code. -/
def exitCode : Ending → Nat
  | stopped .help => 0
  | stopped .badUsage => 2
  | notLoaded _ | notGenerated _ => 1
  | done _ _ => 0

/-- The lines on the output. -/
def outputLines : Ending → List String
  | stopped .help => helpLines
  | done report dryRun => report.paths.map Path.text ++ [summary report dryRun]
  | _ => []

/-- The lines on the error stream. -/
def errorLines : Ending → List String
  | stopped .badUsage => usageLines
  | stopped .help => []
  | notLoaded e => ["Error: failed to load configuration: " ++ e.message]
  | notGenerated e => ["Error: generation failed: " ++ e.message]
  | done report _ => report.diagnostics.map warningLine

/-- The paths of the files of a run. -/
def paths : Ending → List Path
  | done report _ => report.paths
  | _ => []

end Ending

/-- The configuration that a command line works with. -/
def configOf [Formats] (a : Arguments) (environment : Environment) (w : Workspace) :
    Except Error Config :=
  (Config.load w environment (a.config?.map Path.mk)).map a.applyTo

/-- Makes the run of a configuration. -/
def generate (a : Arguments) (config : Config) (w : Workspace) : Ending × Workspace :=
  match (Generation.ofConfig config a.dryRun).run w with
  | (.ok report, w) => (.done report a.dryRun, w)
  | (.error e, w) => (.notGenerated e, w)

/-- Carries out a command line. -/
def run [Formats] (arguments : List String) (environment : Environment) (w : Workspace) :
    Ending × Workspace :=
  match Arguments.ofList arguments with
  | .error stop => (.stopped stop, w)
  | .ok a =>
    match configOf a environment w with
    | .error e => (.notLoaded e, w)
    | .ok config => generate a config w

end ContentClasses.CommandLine
