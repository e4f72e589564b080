import Questionnaire.CommandLine.Arguments
import Questionnaire.CommandLine.Schema
import Questionnaire.Compile.Document
import Questionnaire.Compile.Options
import Questionnaire.Files.Tree
import Questionnaire.Survey.Reading
import Questionnaire.Validation

/-! What the program does with its arguments: the files it loads and writes, what it prints and how it
ends. -/
namespace Questionnaire

/-- Why a file cannot be loaded. -/
inductive LoadError where
  | file (path : String) (error : FileError)
  | survey (error : Json.ReadError)
  | options (error : OptionsError)
deriving DecidableEq, Repr

/-- The message of a load error. -/
def LoadError.message : LoadError → String
  | file path error => s!"failed to read {path}: {error.message}"
  | survey error => s!"invalid survey definition: {error.message}"
  | options error => s!"invalid compile options: {error.message}"

/-- Loads a file whose text is read by a reader. -/
def loadFile {m : Type → Type} [Monad m] [FileAccess m] {α : Type}
    (reader : String → Except LoadError α) (path : String) : m (Except LoadError α) := do
  match ← readTextFile path with
  | .error error => return .error (.file path error)
  | .ok text => return reader text

/-- Loads a survey definition. -/
def Survey.load {m : Type → Type} [Monad m] [FileAccess m] (path : String) :
    m (Except LoadError Survey) :=
  loadFile (fun text => (Survey.ofText text).mapError .survey) path

/-- Loads compile options. -/
def CompileOptions.load {m : Type → Type} [Monad m] [FileAccess m] (path : String) :
    m (Except LoadError CompileOptions) :=
  loadFile (fun text => (CompileOptions.ofText text).mapError .options) path

namespace CommandLine

/-- Why a command cannot be carried out to its end. -/
inductive Failure where
  | survey (path : String)
  | options (path : String)
  | outputDirectory (path : String)
  | output (path : String)
  | invalidSurvey (errors : Nat) (path : String)
deriving DecidableEq, Repr

/-- The message of a failure. -/
def Failure.message : Failure → String
  | survey path => s!"failed to load survey definition {path}"
  | options path => s!"failed to load compile options {path}"
  | outputDirectory path => s!"failed to create output directory {path}"
  | output path => s!"failed to write {path}"
  | invalidSurvey errors path => s!"survey-validate: {errors} error(s) in {path}"

/-- How the program ends: what it has printed, and a failure or wrong usage if there was one. -/
structure Outcome where
  output : String := ""
  failure : Option Failure := none
  wrongUsage : Bool := false
deriving DecidableEq, Repr

/-- The exit code of the program. -/
def Outcome.exitCode (outcome : Outcome) : Nat :=
  if outcome.wrongUsage then 2 else if outcome.failure.isSome then 1 else 0

/-- The name and version of the program. -/
def versionLine : String := "surveyjs-export 0.2.0"

variable {m : Type → Type} [Monad m] [FileAccess m]

/-- The options of the options file, if one is given. -/
def fileOptions (config : Option String) : m (Except Failure CompileOptions) := do
  match config with
  | none => return .ok {}
  | some path => return (← CompileOptions.load path).mapError fun _ => .options path

/-- The switches of the command line on top of other options. -/
def CompileArguments.over (arguments : CompileArguments) (options : CompileOptions) :
    CompileOptions where
  enableFilters := options.enableFilters || arguments.enableFilters
  layout := if arguments.flat then .flat else options.layout
  languagePage := options.languagePage && !arguments.noLanguagePage

/-- The options of a compilation: those of the options file, and the switches of the command line
on top of them. -/
def effectiveOptions (arguments : CompileArguments) : m (Except Failure CompileOptions) :=
  return (← fileOptions arguments.config).map arguments.over

/-- Loads the survey that a command works on. -/
def surveyAt (path : String) : m (Except Failure Survey) :=
  return (← Survey.load path).mapError fun _ => .survey path

/-- Writes a result to a file, whose directory is made if need be, or prints it. -/
def deliver (out : Option String) (payload : String) : m Outcome := do
  match out with
  | none => return { output := payload ++ "\n" }
  | some path =>
    let parent := (parentPath? path).getD ""
    let made ← if parent = "" then pure (.ok ()) else FileAccess.makeDirectories parent
    match made with
    | .error _ => return { failure := some (.outputDirectory parent) }
    | .ok () =>
      match ← FileAccess.write path payload.toUTF8 with
      | .error _ => return { failure := some (.output path) }
      | .ok () => return {}

/-- Compiles a survey. The options are read before it. -/
def runCompile (arguments : CompileArguments) : m Outcome := do
  match ← effectiveOptions arguments with
  | .error failure => return { failure := some failure }
  | .ok options =>
    match ← surveyAt arguments.survey with
    | .error failure => return { failure := some failure }
    | .ok survey =>
      let document := survey.compile options
      deliver arguments.out (if arguments.pretty then document.pretty else document.compact)

/-- Checks a survey. The report is printed also if the survey is invalid. -/
def runValidate (arguments : ValidateArguments) : m Outcome := do
  match ← surveyAt arguments.survey with
  | .error failure => return { failure := some failure }
  | .ok survey =>
    let report := survey.validate
    let text := if arguments.json then report.toJson.pretty else report.text
    return {
      output := text ++ "\n"
      failure :=
        if report.isValid then none
        else some (.invalidSurvey report.errors.length arguments.survey) }

/-- Writes a schema. -/
def runSchema (arguments : SchemaArguments) : m Outcome :=
  deliver arguments.out (if arguments.options then optionsSchema else surveySchema).pretty

/-- Runs the program with its arguments. -/
def run (arguments : List String) : m Outcome :=
  match readCommandLine arguments with
  | .error .wrongUsage => return { wrongUsage := true }
  | .error .showHelp => return {}
  | .error .showVersion => return { output := versionLine ++ "\n" }
  | .ok (.compile arguments) => runCompile arguments
  | .ok (.validate arguments) => runValidate arguments
  | .ok (.schema arguments) => runSchema arguments

end CommandLine
end Questionnaire
