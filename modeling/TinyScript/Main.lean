import TinyScript.CommandLine.Run

/-!
# The command line

The machine at hand as a host, and the program on it.
-/

namespace TinyScript

/-- The failure with a code of the system, which says in words what it means. Some operations report
    the code as a negative number. -/
def FileError.ofCode (code : UInt32) (details : String) : FileError :=
  match min code (0 - code) with
  | 2 => .notFound
  | 17 => .alreadyExists
  | 20 => .notADirectory
  | 21 => .isADirectory
  | 40 => .tooManyLinks
  | code => .other (details ++ " (os error " ++ toString code ++ ")")

/-- The failure that the system reports. -/
def FileError.ofSystem : IO.Error → FileError
  | .noFileOrDirectory _ code details => ofCode code details
  | .alreadyExists _ code details => ofCode code details
  | .inappropriateType _ code details => ofCode code details
  | .permissionDenied _ code details => ofCode code details
  | .resourceExhausted _ code details => ofCode code details
  | .invalidArgument _ code details => ofCode code details
  | .noSuchThing _ code details => ofCode code details
  | .otherError code details => ofCode code details
  | error => .other (toString error)

/-- The result of an operation of the system. -/
def attempt {α : Type} (action : IO α) : IO (Except FileError α) := do
  try
    return .ok (← action)
  catch error =>
    return .error (.ofSystem error)

instance : Host IO where
  read path := attempt (IO.FS.readBinFile path.text)
  write path contents := attempt (IO.FS.writeBinFile path.text contents)
  makeDirectory path := attempt (IO.FS.createDir path.text)
  isDirectory path := do
    match ← attempt (IO.FS.realPath path.text) with
    | .ok place => place.isDir
    | .error _ => return false
  location? path := do
    match ← attempt (IO.FS.realPath path.text) with
    | .ok place => return some (Path.mk place.toString).steps
    | .error _ => return none
  home? := return (← IO.getEnv "HOME").map Path.mk
  print text := IO.print text
  report text := IO.eprint text

end TinyScript

/-- Runs the program. -/
def main (arguments : List String) : IO UInt32 :=
  TinyScript.execute arguments
