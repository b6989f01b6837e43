import TinyScript.Host

/-!
# Machines

A machine is a host that is a value: a file tree with a working directory and the text written so
far. Statements on what a program does to files and streams are made of machines.
-/

namespace TinyScript

/-- A machine: its files, the directory from which paths are seen, the user's own directory, and
    what has been written to its streams. -/
structure Machine where
  files : FileTree
  directory : Location
  home : Option Path
  output : String := ""
  errors : String := ""

namespace Machine

/-- Replaces the files, or leaves the machine as it is. -/
def update (change : FileTree → Except FileError FileTree) :
    StateM Machine (Except FileError Unit) := fun machine =>
  match change machine.files with
  | .ok files => (.ok (), { machine with files })
  | .error error => (.error error, machine)

instance : Host (StateM Machine) where
  read path := return (← get).files.read (← get).directory path
  write path contents := do
    let directory := (← get).directory
    update (·.write directory path contents)
  makeDirectory path := do
    let directory := (← get).directory
    update (·.makeDirectory directory path)
  isDirectory path := return (← get).files.isDirectory (← get).directory path
  location? path := return (← get).files.location? (← get).directory path
  home? := return (← get).home
  print text := modify fun machine => { machine with output := machine.output ++ text }
  report text := modify fun machine => { machine with errors := machine.errors ++ text }

/-- Makes a symbolic link. -/
def makeLink (path target : Path) : StateM Machine (Except FileError Unit) := do
  let directory := (← get).directory
  update (·.makeLink directory path target)

/-- A machine with nothing but a user's directory and those around it. It is also the working
    directory. -/
def fresh (directory : Location) : Machine where
  files := (List.range directory.length).foldl
    (fun files depth => files.put (directory.take (depth + 1)) .directory) {}
  directory := directory
  home := some ⟨"/" ++ "/".intercalate directory⟩

/-- The machine with nothing written to its streams yet. -/
def rewound (machine : Machine) : Machine :=
  { machine with output := "", errors := "" }

/-- The contents that can be read below the working directory. -/
def contents (machine : Machine) : List (Location × ByteArray) :=
  machine.files.contentsBelow machine.directory

/-- The contents below the working directory that were not the same in an earlier machine. -/
def changesSince (machine earlier : Machine) : List (Location × ByteArray) :=
  let before := earlier.contents
  machine.contents.filter fun (names, contents) =>
    (before.lookup names).map ByteArray.data ≠ some contents.data

end Machine

end TinyScript
