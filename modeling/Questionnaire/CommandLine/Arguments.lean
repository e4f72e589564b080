/-! The arguments of the command line: switches, options with a value and positional arguments,
for each of the commands. -/
namespace Questionnaire.CommandLine

/-- What the command `compile` is asked to do. -/
structure CompileArguments where
  survey : String
  out : Option String := none
  pretty : Bool := false
  config : Option String := none
  enableFilters : Bool := false
  flat : Bool := false
  noLanguagePage : Bool := false
deriving DecidableEq, Repr

/-- What the command `validate` is asked to do. -/
structure ValidateArguments where
  survey : String
  json : Bool := false
deriving DecidableEq, Repr

/-- What the command `schema` is asked to do. -/
structure SchemaArguments where
  options : Bool := false
  out : Option String := none
deriving DecidableEq, Repr

/-- What the program is asked to do. -/
inductive Command where
  | compile (arguments : CompileArguments)
  | validate (arguments : ValidateArguments)
  | schema (arguments : SchemaArguments)
deriving DecidableEq, Repr

/-- Why no command is carried out. -/
inductive Stop where
  | wrongUsage
  | showHelp
  | showVersion
deriving DecidableEq, Repr

/-- The arguments that a command takes. -/
structure Grammar where
  /-- Switches, by their long names; each may be given once. -/
  switches : List String
  /-- Options with a value, by their long names and perhaps a letter; each may be given once. -/
  valued : List (String × Option Char)
  /-- The number of positional arguments, all of which must be given. -/
  positionals : Nat

/-- Arguments as they have been given so far. -/
structure Given where
  switches : List String := []
  values : List (String × String) := []
  positionals : List String := []

namespace Given

/-- Takes in a switch. -/
def addSwitch (given : Given) (name : String) : Except Stop Given :=
  if given.switches.contains name then .error .wrongUsage
  else .ok { given with switches := name :: given.switches }

/-- Takes in the value of an option; it must not be empty. -/
def addValue (given : Given) (name value : String) : Except Stop Given :=
  if value = "" ∨ (given.values.lookup name).isSome then .error .wrongUsage
  else .ok { given with values := (name, value) :: given.values }

/-- Takes in a positional argument; it must not be empty. -/
def addPositional (given : Given) (grammar : Grammar) (value : String) : Except Stop Given :=
  if value = "" ∨ grammar.positionals ≤ given.positionals.length then .error .wrongUsage
  else .ok { given with positionals := given.positionals ++ [value] }

end Given

/-- A reading of one argument. -/
inductive Word where
  | done (given : Given)
  /-- An option whose value is the next argument. -/
  | needsValue (name : String) (given : Given)

/-- The value that is written together with an option's letter, with or without an equals sign. -/
def attachedValue : List Char → List Char
  | '=' :: rest => rest
  | value => value

/-- Reads letters behind a single hyphen. -/
def readLetters (grammar : Grammar) (given : Given) : List Char → Except Stop Word
  | [] => .ok (.done given)
  | c :: rest =>
    if c = 'v' then readLetters grammar given rest
    else if c = 'h' then .error .showHelp
    else
      match grammar.valued.find? (·.2 == some c) with
      | none => .error .wrongUsage
      | some (name, _) =>
        if rest.isEmpty then .ok (.needsValue name given)
        else (given.addValue name (String.ofList (attachedValue rest))).map .done

/-- Reads a name behind two hyphens, with perhaps a value behind an equals sign. -/
def readName (grammar : Grammar) (given : Given) (text : List Char) : Except Stop Word :=
  let name := String.ofList (text.takeWhile (· != '='))
  match text.dropWhile (· != '=') with
  | [] =>
    if name = "verbose" then .ok (.done given)
    else if name = "help" then .error .showHelp
    else if grammar.switches.contains name then (given.addSwitch name).map .done
    else if (grammar.valued.lookup name).isSome then .ok (.needsValue name given)
    else .error .wrongUsage
  | _ :: value =>
    if (grammar.valued.lookup name).isSome
    then (given.addValue name (String.ofList value)).map .done
    else .error .wrongUsage

/-- Whether an argument can be no value of an option before it. -/
def isOptionLike (argument : String) : Bool :=
  argument.startsWith "-" && argument != "-"

/-- Reads one argument. -/
def readWord (grammar : Grammar) (given : Given) (argument : String) : Except Stop Word :=
  match argument.toList with
  | '-' :: '-' :: text => readName grammar given text
  | '-' :: c :: text => readLetters grammar given (c :: text)
  | _ => (given.addPositional grammar argument).map .done

/-- Reads the arguments of a command. Behind two hyphens alone all arguments are positional. -/
def readArguments (grammar : Grammar) : Given → List String → Except Stop Given
  | given, [] =>
    if given.positionals.length = grammar.positionals then .ok given else .error .wrongUsage
  | given, argument :: rest => do
    if argument = "--" then
      let given ← rest.foldlM (·.addPositional grammar ·) given
      if given.positionals.length = grammar.positionals then .ok given else .error .wrongUsage
    else
      match ← readWord grammar given argument with
      | .done given => readArguments grammar given rest
      | .needsValue name given =>
        match rest with
        | [] => .error .wrongUsage
        | value :: rest =>
          if isOptionLike value then .error .wrongUsage
          else readArguments grammar (← given.addValue name value) rest

/-- The arguments of `compile`. -/
def compileGrammar : Grammar where
  switches := ["pretty", "enable-filters", "flat", "no-language-page"]
  valued := [("out", some 'o'), ("config", none)]
  positionals := 1

/-- The arguments of `validate`. -/
def validateGrammar : Grammar where
  switches := ["json"]
  valued := []
  positionals := 1

/-- The arguments of `schema`. -/
def schemaGrammar : Grammar where
  switches := ["options"]
  valued := [("out", some 'o')]
  positionals := 0

/-- The names of the commands. -/
def commandNames : List String := ["compile", "validate", "schema", "help"]

/-- What asking for help comes to: help is there on the program and on each of its commands. -/
def readHelp : List String → Stop
  | [] => .showHelp
  | [name] => if commandNames.contains name then .showHelp else .wrongUsage
  | _ => .wrongUsage

/-- The command of a name with its arguments. -/
def readCommand (name : String) (arguments : List String) : Except Stop Command := do
  match name with
  | "compile" =>
    let given ← readArguments compileGrammar {} arguments
    return .compile {
      survey := given.positionals.headD ""
      out := given.values.lookup "out"
      pretty := given.switches.contains "pretty"
      config := given.values.lookup "config"
      enableFilters := given.switches.contains "enable-filters"
      flat := given.switches.contains "flat"
      noLanguagePage := given.switches.contains "no-language-page" }
  | "validate" =>
    let given ← readArguments validateGrammar {} arguments
    return .validate {
      survey := given.positionals.headD ""
      json := given.switches.contains "json" }
  | "schema" =>
    let given ← readArguments schemaGrammar {} arguments
    return .schema {
      options := given.switches.contains "options"
      out := given.values.lookup "out" }
  | "help" => .error (readHelp arguments)
  | _ => .error .wrongUsage

/-- Reads letters behind a single hyphen before a command. -/
def readLeadingLetters : List Char → Except Stop Unit
  | [] => .ok ()
  | 'v' :: rest => readLeadingLetters rest
  | 'V' :: _ => .error .showVersion
  | 'h' :: _ => .error .showHelp
  | _ => .error .wrongUsage

/-- Reads the arguments of the program: general switches, then a command. -/
def readCommandLine : List String → Except Stop Command
  | [] => .error .wrongUsage
  | argument :: rest =>
    match argument.toList with
    | '-' :: '-' :: name =>
      if String.ofList name = "verbose" then readCommandLine rest
      else if String.ofList name = "version" then .error .showVersion
      else if String.ofList name = "help" then .error .showHelp
      else .error .wrongUsage
    | '-' :: c :: letters => do
      readLeadingLetters (c :: letters)
      readCommandLine rest
    | _ => readCommand argument rest

end Questionnaire.CommandLine
