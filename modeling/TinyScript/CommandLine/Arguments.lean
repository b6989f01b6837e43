import TinyScript.Path

/-!
# Command line arguments

What the arguments of the program ask for. Options may stand before and behind the input; short
flags may be joined; the value of an option may follow it, or be joined to it with or without an
equals sign. Arguments are judged from left to right, and a request for the version ends that at
once.
-/

namespace TinyScript

/-- What a run is asked to do. -/
structure Invocation where
  input : Path
  output : Option Path := none
  config : Option Path := none
  emitAst : Bool := false
  astOnly : Bool := false
  stdout : Bool := false
  quiet : Bool := false
  deriving DecidableEq, Repr

/-- What the arguments ask for. -/
inductive Request where
  | version
  | help
  | run (invocation : Invocation)
  deriving DecidableEq, Repr

/-- The options without a value. -/
inductive Flag where
  | emitAst
  | astOnly
  | stdout
  | quiet
  deriving DecidableEq, Repr

/-- The options with a value. -/
inductive Setting where
  | output
  | config
  deriving DecidableEq, Repr

/-- An option. -/
inductive CliOption where
  | flag (flag : Flag)
  | setting (setting : Setting)
  | version
  | help
  deriving DecidableEq, Repr

/-- The option with a long name. -/
def CliOption.long? : String → Option CliOption
  | "output" => some (.setting .output)
  | "config" => some (.setting .config)
  | "emit-ast" => some (.flag .emitAst)
  | "ast-only" => some (.flag .astOnly)
  | "stdout" => some (.flag .stdout)
  | "quiet" => some (.flag .quiet)
  | "version" => some .version
  | "help" => some .help
  | _ => none

/-- The option with a short name. -/
def CliOption.short? : Char → Option CliOption
  | 'o' => some (.setting .output)
  | 'q' => some (.flag .quiet)
  | 'V' => some .version
  | 'h' => some .help
  | _ => none

/-- Why arguments cannot be understood. -/
inductive UsageError where
  | missingInput
  | unexpectedArgument (argument : String)
  | unknownOption (option : String)
  | missingValue (setting : Setting)
  | emptyValue
  | unwantedValue (option : String)
  | repeatedOption (option : CliOption)
  | conflict
  deriving DecidableEq, Repr

/-- The long name of an option. -/
def CliOption.name : CliOption → String
  | setting .output => "--output"
  | setting .config => "--config"
  | flag .emitAst => "--emit-ast"
  | flag .astOnly => "--ast-only"
  | flag .stdout => "--stdout"
  | flag .quiet => "--quiet"
  | version => "--version"
  | help => "--help"

/-- The error in words. -/
def UsageError.message : UsageError → String
  | missingInput => "the input is missing"
  | unexpectedArgument argument => "unexpected argument " ++ argument
  | unknownOption option => "unknown option " ++ option
  | missingValue setting => (CliOption.setting setting).name ++ " needs a value"
  | emptyValue => "a value is empty"
  | unwantedValue option => option ++ " takes no value"
  | repeatedOption option => option.name ++ " is given twice"
  | conflict => "only one of --output, --stdout and --ast-only can be given"

/-- What has been asked for so far. -/
structure Draft where
  input : Option Path := none
  output : Option Path := none
  config : Option Path := none
  flags : List Flag := []

namespace Draft

/-- Takes an argument that is no option. -/
def addInput (draft : Draft) (argument : String) : Except UsageError Draft :=
  if draft.input.isSome then .error (.unexpectedArgument argument)
  else if argument.isEmpty then .error .emptyValue
  else .ok { draft with input := some ⟨argument⟩ }

/-- Takes a flag. -/
def addFlag (draft : Draft) (flag : Flag) : Except UsageError Draft :=
  if draft.flags.contains flag then .error (.repeatedOption (.flag flag))
  else .ok { draft with flags := flag :: draft.flags }

/-- Takes an option with its value. -/
def addSetting (draft : Draft) (setting : Setting) (value : String) : Except UsageError Draft :=
  if value.isEmpty then .error .emptyValue
  else
    match setting with
    | .output =>
      if draft.output.isSome then .error (.repeatedOption (.setting .output))
      else .ok { draft with output := some ⟨value⟩ }
    | .config =>
      if draft.config.isSome then .error (.repeatedOption (.setting .config))
      else .ok { draft with config := some ⟨value⟩ }

/-- Whether two of the options exclude each other. -/
def conflicts (draft : Draft) : Bool :=
  let astOnly := draft.flags.contains .astOnly
  let stdout := draft.flags.contains .stdout
  (astOnly && (stdout || draft.output.isSome)) || (stdout && draft.output.isSome)

/-- The run that is asked for. -/
def finish (draft : Draft) : Except UsageError Request :=
  if draft.conflicts then .error .conflict
  else
    match draft.input with
    | none => .error .missingInput
    | some input => .ok <| .run {
        input
        output := draft.output
        config := draft.config
        emitAst := draft.flags.contains .emitAst
        astOnly := draft.flags.contains .astOnly
        stdout := draft.flags.contains .stdout
        quiet := draft.flags.contains .quiet }

end Draft

/-- How an argument with options in it ends. -/
inductive ArgumentEnd where
  | done (draft : Draft)
  | awaits (draft : Draft) (setting : Setting)
  | answer (request : Request)

namespace ArgumentEnd

/-- Reads an option with a long name and what follows an equals sign behind it. -/
def ofLong (draft : Draft) (name : String) (value : Option String) :
    Except UsageError ArgumentEnd := do
  match CliOption.long? name, value with
  | none, _ => .error (.unknownOption name)
  | some (.setting setting), some value => return .done (← draft.addSetting setting value)
  | some (.setting setting), none => return .awaits draft setting
  | some _, some _ => .error (.unwantedValue name)
  | some (.flag flag), none => return .done (← draft.addFlag flag)
  | some .version, none => return .answer .version
  | some .help, none => return .answer .help

/-- Reads joined options with short names. -/
def ofShort (draft : Draft) : List Char → Except UsageError ArgumentEnd
  | [] => .ok (.done draft)
  | char :: rest =>
    match CliOption.short? char with
    | none => .error (.unknownOption char.toString)
    | some (.flag flag) => do ofShort (← draft.addFlag flag) rest
    | some (.setting setting) =>
      match rest with
      | [] => .ok (.awaits draft setting)
      | '=' :: value => do return .done (← draft.addSetting setting (String.ofList value))
      | value => do return .done (← draft.addSetting setting (String.ofList value))
    | some .version => .ok (.answer .version)
    | some .help => .ok (.answer .help)

/-- Splits a text at its first equals sign, if it has one. -/
def splitEquals (text : List Char) : String × Option String :=
  match text.dropWhile (· ≠ '=') with
  | _ :: value => (String.ofList (text.takeWhile (· ≠ '=')), some (String.ofList value))
  | [] => (String.ofList text, none)

/-- Reads an argument, which may hold options. -/
def ofArgument (draft : Draft) (argument : String) : Except UsageError ArgumentEnd :=
  match argument.toList with
  | '-' :: '-' :: text =>
    let (name, value) := splitEquals text
    ofLong draft name value
  | '-' :: char :: rest => ofShort draft (char :: rest)
  | _ => do return .done (← draft.addInput argument)

end ArgumentEnd

/-- Whether an argument may be the value of the option before it. -/
def isValue (argument : String) : Bool :=
  match argument.toList with
  | '-' :: _ :: _ => false
  | _ => true

/-- Reads arguments that are no options. -/
def Draft.addInputs (draft : Draft) (arguments : List String) : Except UsageError Request := do
  (← arguments.foldlM Draft.addInput draft).finish

/-- Reads the arguments behind those that made up a draft. -/
def Draft.addArguments (draft : Draft) : List String → Except UsageError Request
  | [] => draft.finish
  | argument :: rest =>
    if argument = "--" then draft.addInputs rest
    else do
      match ← ArgumentEnd.ofArgument draft argument with
      | .done draft => draft.addArguments rest
      | .answer request => return request
      | .awaits draft setting =>
        match rest with
        | [] => .error (.missingValue setting)
        | value :: rest =>
          if isValue value then
            let draft ← draft.addSetting setting value
            draft.addArguments rest
          else .error (.missingValue setting)

/-- What arguments ask for. -/
def Request.ofArguments (arguments : List String) : Except UsageError Request :=
  Draft.addArguments {} arguments

end TinyScript
