import TinyScript.Cpp.Emit
import TinyScript.Host
import TinyScript.Yaml.Document

/-!
# Settings

What a user may settle once for all runs, in a YAML file. Each setting may be left out; keys that
are no settings are passed over. Loading takes the reader of such files as a parameter. The reader
defined here is used where none is given; it reads the part of YAML that `Yaml.document?` does.
-/

namespace TinyScript

/-- The settings of a run. -/
structure Settings where
  /-- The indentation of statements in functions. -/
  indent : String := Cpp.defaultIndent
  /-- Whether the tree of a program is written too. -/
  emitAst : Bool := false
  /-- What the file of the tree adds to the stem of the input. -/
  astSuffix : String := "-ast.json"
  /-- The extension of the file of the C++ text. -/
  outputExtension : String := "cpp"
  deriving DecidableEq, Repr

/-- Why a text holds no settings. -/
inductive SettingsError where
  | malformed
  | notAMapping
  | duplicateKey (key : String)
  | notText (key : String)
  | notBool (key : String)
  | other (message : String)
  deriving DecidableEq, Repr

/-- The error in words. -/
def SettingsError.message : SettingsError → String
  | malformed => "malformed settings"
  | notAMapping => "settings are not a mapping"
  | duplicateKey key => "duplicate key " ++ key
  | notText key => key ++ " is not a text"
  | notBool key => key ++ " is neither true nor false"
  | other message => message

namespace Settings

/-- The settings given so far. -/
structure Parts where
  indent : Option String := none
  emitAst : Option Bool := none
  astSuffix : Option String := none
  outputExtension : Option String := none

/-- A setting that is given at most once. -/
def once {α : Type} (key : String) (given : Option α) (value : Except SettingsError α) :
    Except SettingsError (Option α) :=
  if given.isSome then .error (.duplicateKey key) else value.map some

/-- A setting that is a text: any scalar as it stands. -/
def text (key : String) (value : Yaml) : Except SettingsError String :=
  value.scalar?.elim (.error (.notText key)) .ok

/-- A setting that is true or false, without quotes. -/
def bool (key : String) : Yaml → Except SettingsError Bool
  | .plain "true" | .plain "True" | .plain "TRUE" => .ok true
  | .plain "false" | .plain "False" | .plain "FALSE" => .ok false
  | _ => .error (.notBool key)

/-- Reads an entry of a mapping. -/
def Parts.entry (parts : Parts) : String × Yaml → Except SettingsError Parts
  | (key, value) => do
    match key with
    | "indent" => return { parts with indent := ← once key parts.indent (text key value) }
    | "emit_ast" => return { parts with emitAst := ← once key parts.emitAst (bool key value) }
    | "ast_suffix" =>
      return { parts with astSuffix := ← once key parts.astSuffix (text key value) }
    | "output_extension" =>
      return { parts with outputExtension := ← once key parts.outputExtension (text key value) }
    | _ => return parts

/-- The settings that are given, and the usual ones for the others. -/
def ofParts (parts : Parts) : Settings :=
  let usual : Settings := {}
  { indent := parts.indent.getD usual.indent
    emitAst := parts.emitAst.getD usual.emitAst
    astSuffix := parts.astSuffix.getD usual.astSuffix
    outputExtension := parts.outputExtension.getD usual.outputExtension }

/-- The settings in a text. A text without any is no error. -/
def ofText (source : String) : Except SettingsError Settings :=
  if source.toList.all isBlank then .ok {}
  else
    match Yaml.document? source with
    | none => .error .malformed
    | some none => .ok {}
    | some (some (.mapping entries)) => ofParts <$> entries.foldlM Parts.entry {}
    | some (some _) => .error .notAMapping

/-- What finds the settings in a text. It may refuse a text for causes of its own. -/
abbrev Reader := String → Except SettingsError Settings

/-- Where the settings of a user are, seen from the user's own directory. -/
def usualPath : Path := ⟨".cppify/config.yaml"⟩

end Settings

/-- Why settings cannot be loaded. -/
inductive LoadError where
  | file (error : FileError)
  | settings (error : SettingsError)
  deriving DecidableEq, Repr

/-- The error in words. -/
def LoadError.message : LoadError → String
  | file error => error.message
  | settings error => error.message

namespace Settings

variable {m : Type → Type} [Monad m] [Host m]

/-- Loads the settings in a file. -/
def loadFrom (path : Path) (reader : Reader := ofText) : m (Except LoadError Settings) := do
  match ← Host.readText path with
  | .ok source => return (reader source).mapError .settings
  | .error error => return .error (.file error)

/-- Loads the settings of the user; the usual ones where that fails. -/
def load (reader : Reader := ofText) : m Settings := do
  match ← Host.home? with
  | none => return {}
  | some home =>
    match ← loadFrom (home.join usualPath) reader with
    | .ok settings => return settings
    | .error _ => return {}

end Settings

end TinyScript
