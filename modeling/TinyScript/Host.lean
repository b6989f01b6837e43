import TinyScript.FileTree

/-!
# Hosts

What the program asks of the machine it runs on: files, directories, a place for settings, and two
streams of text. Programs are written for any host, and may fail on it with errors of their own.
-/

namespace TinyScript

/-- The operations that a program may ask for. -/
class Host (m : Type → Type) where
  /-- The contents of the file that a path leads to. -/
  read : Path → m (Except FileError ByteArray)
  /-- Gives a file contents; it is made if its name is free. -/
  write : Path → ByteArray → m (Except FileError Unit)
  /-- Makes a directory. -/
  makeDirectory : Path → m (Except FileError Unit)
  /-- Whether a path leads to a directory. -/
  isDirectory : Path → m Bool
  /-- The location that a path leads to, if there is an entry. -/
  location? : Path → m (Option Location)
  /-- The user's own directory. -/
  home? : m (Option Path)
  /-- Writes to standard output. -/
  print : String → m Unit
  /-- Writes to standard error. -/
  report : String → m Unit

/-- Operations that may fail with errors of a program ask its host. -/
instance {m : Type → Type} {ε : Type} [Monad m] [Host m] : Host (ExceptT ε m) where
  read path := ExceptT.lift (Host.read path)
  write path contents := ExceptT.lift (Host.write path contents)
  makeDirectory path := ExceptT.lift (Host.makeDirectory path)
  isDirectory path := ExceptT.lift (Host.isDirectory path)
  location? path := ExceptT.lift (Host.location? path)
  home? := ExceptT.lift Host.home?
  print text := ExceptT.lift (Host.print text)
  report text := ExceptT.lift (Host.report text)

namespace Host

variable {m : Type → Type} [Monad m] [Host m]

/-- The text of the file that a path leads to. -/
def readText (path : Path) : m (Except FileError String) := do
  match ← Host.read path with
  | .ok contents => return (String.fromUTF8? contents).elim (.error .notText) .ok
  | .error error => return .error error

/-- Settles an attempt to make a directory: that it is there already is no failure. -/
def settle (path : Path) : Except FileError Unit → m (Except FileError Unit)
  | .error .alreadyExists => do
    if ← Host.isDirectory path then return .ok () else return .error .alreadyExists
  | result => return result

/-- Makes the first of some directories, each of which stands in the next one. -/
def makeDirectories : List Path → m (Except FileError Unit)
  | [] => return .ok ()
  | path :: around => do
    match ← Host.makeDirectory path with
    | .error .notFound =>
      match ← makeDirectories around with
      | .ok () => settle path (← Host.makeDirectory path)
      | .error error => return .error error
    | result => settle path result

/-- Gives a file contents, and makes the directories around it if they are missing. -/
def writeContents (path : Path) (contents : ByteArray) : m (Except FileError Unit) := do
  match ← makeDirectories (path.parent?.elim [] Path.ancestors) with
  | .ok () => Host.write path contents
  | .error error => return .error error

/-- Gives a file a text, and makes the directories around it if they are missing. -/
def writeText (path : Path) (text : String) : m (Except FileError Unit) :=
  writeContents path text.toUTF8

/-- Whether two paths lead to the same entry. -/
def isSameFile (first second : Path) : m Bool := do
  match ← Host.location? first, ← Host.location? second with
  | some first, some second => return first = second
  | _, _ => return false

end Host

end TinyScript
