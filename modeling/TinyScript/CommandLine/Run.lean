import TinyScript.CommandLine.Arguments
import TinyScript.Compiler
import TinyScript.Program.ToJson
import TinyScript.Settings

/-!
# Runs of the program

A run loads its settings, reads its input, and then prints or writes what was asked for. It stops at
the first failure; nothing is written before the C++ text is complete.
-/

namespace TinyScript

/-- Why a run fails. -/
inductive RunError where
  | settings (path : Path) (error : LoadError)
  | input (path : Path) (error : FileError)
  | parse (path : Path) (error : ParseError)
  | emit (path : Path) (error : EmitError)
  | extension (text : String)
  | overwrite (output : Path)
  | write (path : Path) (error : FileError)
  deriving DecidableEq, Repr

namespace RunError

/-- The error in words: what was being done, and the cause. -/
def message : RunError → String
  | settings path error => "reading config " ++ path.text ++ ": " ++ error.message
  | input path error => "reading " ++ path.text ++ ": " ++ error.message
  | parse path error => "parsing " ++ path.text ++ ": " ++ error.report.display
  | emit path error => "emitting C++ for " ++ path.text ++ ": " ++ error.report.display
  | .extension text => "extension " ++ text ++ " contains a slash"
  | overwrite output => "output path " ++ output.text ++ " would overwrite the input"
  | write path error => "writing " ++ path.text ++ ": " ++ error.message

/-- The exit code for the error. -/
def code : RunError → UInt32
  | .extension _ => 101
  | _ => 1

end RunError

namespace Invocation

variable {m : Type → Type} [Monad m] [Host m]

/-- Loads the settings: those asked for, or those of the user. -/
def loadSettings (invocation : Invocation) (reader : Settings.Reader) :
    ExceptT RunError m Settings := do
  match invocation.config with
  | none => Settings.load reader
  | some path =>
    match ← Settings.loadFrom path reader with
    | .ok settings => return settings
    | .error error => throw (.settings path error)

/-- Reads the input. -/
def readInput (invocation : Invocation) : ExceptT RunError m String := do
  match ← Host.readText invocation.input with
  | .ok source => return source
  | .error error => throw (.input invocation.input error)

/-- Prints a line unless the run is to be quiet. -/
def status (invocation : Invocation) (line : String) : ExceptT RunError m Unit :=
  if invocation.quiet then return else Host.print (line ++ "\n")

/-- Writes a text to a file. -/
def writeFile (path : Path) (text : String) : ExceptT RunError m Unit := do
  match ← Host.writeText path text with
  | .ok () => return
  | .error error => throw (.write path error)

/-- The path for the C++ text: the one asked for, or the input's with another extension. -/
def outputPath (invocation : Invocation) (settings : Settings) : Except RunError Path :=
  match invocation.output with
  | some output => .ok output
  | none =>
    (outputPath? invocation.input settings.outputExtension).elim
      (.error (.extension settings.outputExtension)) .ok

/-- Prints the C++ text or writes it to a file other than the input. -/
def deliver (invocation : Invocation) (settings : Settings) (cpp : String) :
    ExceptT RunError m Unit := do
  if invocation.stdout then Host.print cpp
  else
    let output ← MonadExcept.ofExcept (invocation.outputPath settings)
    if ← Host.isSameFile output invocation.input then throw (.overwrite output)
    else
      writeFile output cpp
      invocation.status ("transpiled " ++ invocation.input.text ++ " -> " ++ output.text)

/-- Writes the tree to its file if that is asked for. -/
def deliverAst (invocation : Invocation) (settings : Settings) (ast : String) :
    ExceptT RunError m Unit := do
  if invocation.emitAst || settings.emitAst then
    let path := astPath invocation.input settings.astSuffix
    writeFile path ast
    invocation.status ("AST saved to " ++ path.text)

/-- A run, given a reader of settings. -/
def run (invocation : Invocation) (reader : Settings.Reader) : ExceptT RunError m Unit := do
  let settings ← invocation.loadSettings reader
  let source ← invocation.readInput
  let program ← MonadExcept.ofExcept <|
    (Program.parse source).mapError (RunError.parse invocation.input)
  if invocation.astOnly then Host.print (program.toJsonText ++ "\n")
  else
    let cpp ← MonadExcept.ofExcept <|
      (Cpp.emit settings.indent program).mapError (RunError.emit invocation.input)
    invocation.deliver settings cpp
    invocation.deliverAst settings program.toJsonText

end Invocation

/-- The name and the version of the program. -/
def versionText : String := "cppify 0.1.0\n"

/-- How the program is called. -/
def usageText : String :=
  "\n".intercalate [
    "Usage: cppify [OPTIONS] <INPUT>",
    "",
    "Options:",
    "  -o, --output <OUTPUT>  write the C++ text to this file",
    "      --emit-ast         also write the tree as JSON",
    "      --ast-only         print the tree as JSON and stop",
    "      --stdout           print the C++ text",
    "      --config <CONFIG>  read the settings from this file",
    "  -q, --quiet            print no status lines",
    "  -h, --help             print this text",
    "  -V, --version          print the version",
    ""]

section

variable {m : Type → Type} [Monad m] [Host m]

/-- Runs the program with the given arguments; the result is its exit code. -/
def execute (arguments : List String) (reader : Settings.Reader := Settings.ofText) :
    m UInt32 := do
  match Request.ofArguments arguments with
  | .error error =>
    Host.report ("error: " ++ error.message ++ "\n\n" ++ usageText)
    return 2
  | .ok .version =>
    Host.print versionText
    return 0
  | .ok .help =>
    Host.print usageText
    return 0
  | .ok (.run invocation) =>
    match ← (invocation.run reader).run with
    | .ok () => return 0
    | .error error =>
      Host.report ("error: " ++ error.message ++ "\n")
      return error.code

end

end TinyScript
