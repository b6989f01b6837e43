import TinyScript.Path

/-!
# Trees of files

A file tree holds directories, files and symbolic links. Each entry stands at a location: the names
on the way to it from the root, none of which is a link. A path leads to a location once its links
are followed, at most forty of them.

A file is the contents at its location. Two names of one file, as hard links give them, cannot be
expressed: here a write through one name never shows under another, unless a symbolic link leads
from one to the other.
-/

namespace TinyScript

/-- Why a file operation fails. -/
inductive FileError where
  | notFound
  | alreadyExists
  | notADirectory
  | isADirectory
  | tooManyLinks
  | notText
  | other (message : String)
  deriving DecidableEq, Repr

/-- The error in words. -/
def FileError.message : FileError → String
  | notFound => "No such file or directory (os error 2)"
  | alreadyExists => "File exists (os error 17)"
  | notADirectory => "Not a directory (os error 20)"
  | isADirectory => "Is a directory (os error 21)"
  | tooManyLinks => "Too many levels of symbolic links (os error 40)"
  | notText => "stream did not contain valid UTF-8"
  | other message => message

/-- The names on the way from the root to an entry. -/
abbrev Location := List String

/-- An entry of a file tree. -/
inductive FileNode where
  | directory
  | file (contents : ByteArray)
  | link (target : Path)

/-- Entries at their locations. The root is a directory and has no entry. -/
structure FileTree where
  entries : List (Location × FileNode) := []

/-- Where a path leads: to an entry, or to a name that is still free in a directory. -/
inductive Target where
  | entry (location : Location) (node : FileNode)
  | free (directory : Location) (name : String)

namespace FileTree

/-- The entry at a location. -/
def node? (tree : FileTree) (location : Location) : Option FileNode :=
  if location.isEmpty then some .directory else tree.entries.lookup location

/-- The tree with an entry put at a location, in place of the one that was there. -/
def put (tree : FileTree) (location : Location) (node : FileNode) : FileTree :=
  ⟨(location, node) :: tree.entries.filter (·.1 ≠ location)⟩

/-- How many links may be followed on the way to one target. -/
def linkLimit : Nat := 40

/-- Follows names from a directory on. A link on the way is passed to `follow` with its directory,
    its target and the names behind it. An empty name asks for a directory, as a slash at the end
    of a path does. It is refused behind the last name of all if a file is to be made. -/
def walkWith (tree : FileTree) (follow : Location → Path → List String → Except FileError Target)
    (creating : Bool) : Location → List String → Except FileError Target
  | here, [] => .ok (.entry here .directory)
  | here, name :: rest =>
    if name = "" || name = "." then walkWith tree follow creating here rest
    else if name = ".." then walkWith tree follow creating here.dropLast rest
    else if creating && !rest.isEmpty && rest.all (· = "") then .error .isADirectory
    else
      let location := here ++ [name]
      match tree.node? location with
      | none => if rest.isEmpty then .ok (.free here name) else .error .notFound
      | some .directory => walkWith tree follow creating location rest
      | some (.file contents) =>
        if rest.isEmpty then .ok (.entry location (.file contents)) else .error .notADirectory
      | some (.link target) => follow here target rest

/-- The names that a path asks for, with an empty one for a slash at its end. -/
def namesOf (path : Path) : List String :=
  if path.endsInSlash then path.steps ++ [""] else path.steps

/-- Follows names from a directory on, and a number of links. -/
def walk (tree : FileTree) (creating : Bool) :
    Nat → Location → List String → Except FileError Target
  | 0 => tree.walkWith (fun _ _ _ => .error .tooManyLinks) creating
  | links + 1 =>
    tree.walkWith (fun here target rest =>
      walk tree creating links (if target.isAbsolute then [] else here) (namesOf target ++ rest))
      creating

/-- Where names lead that are seen from a directory, or from the root for an absolute path. -/
def follow (tree : FileTree) (creating : Bool) (here : Location) (path : Path)
    (names : List String) : Except FileError Target :=
  if path.text.isEmpty then .error .notFound
  else tree.walk creating linkLimit (if path.isAbsolute then [] else here) names

/-- Where a path leads that is seen from a directory. -/
def resolve (tree : FileTree) (here : Location) (path : Path) : Except FileError Target :=
  tree.follow false here path (namesOf path)

/-- The directory in which the last name of a path stands. -/
def enclosing (tree : FileTree) (here : Location) (path : Path) : Except FileError Location := do
  match ← tree.follow false here path path.steps.dropLast with
  | .entry location .directory => return location
  | .entry .. => .error .notADirectory
  | .free .. => .error .notFound

/-- The location of the entry that a path leads to. -/
def location? (tree : FileTree) (here : Location) (path : Path) : Option Location :=
  match tree.resolve here path with
  | .ok (.entry location _) => some location
  | _ => none

/-- Whether a path leads to a directory. -/
def isDirectory (tree : FileTree) (here : Location) (path : Path) : Bool :=
  match tree.resolve here path with
  | .ok (.entry _ .directory) => true
  | _ => false

/-- The contents of the file that a path leads to. -/
def read (tree : FileTree) (here : Location) (path : Path) : Except FileError ByteArray := do
  match ← tree.resolve here path with
  | .entry _ (.file contents) => return contents
  | .entry _ .directory => .error .isADirectory
  | .entry _ (.link _) => .error .tooManyLinks
  | .free .. => .error .notFound

/-- The tree in which the file that a path leads to has the given contents; it is made if its name
    is free. -/
def write (tree : FileTree) (here : Location) (path : Path) (contents : ByteArray) :
    Except FileError FileTree := do
  match ← tree.follow true here path (namesOf path) with
  | .entry location (.file _) => return tree.put location (.file contents)
  | .free directory name => return tree.put (directory ++ [name]) (.file contents)
  | .entry _ .directory => .error .isADirectory
  | .entry _ (.link _) => .error .tooManyLinks

/-- The tree with a new directory. -/
def makeDirectory (tree : FileTree) (here : Location) (path : Path) :
    Except FileError FileTree := do
  let directory ← tree.enclosing here path
  match path.steps.getLast? with
  | none => .error .alreadyExists
  | some name =>
    if name = "." || name = ".." then .error .alreadyExists
    else
      match tree.node? (directory ++ [name]) with
      | some _ => .error .alreadyExists
      | none => return tree.put (directory ++ [name]) .directory

/-- The tree with a new link. -/
def makeLink (tree : FileTree) (here : Location) (path target : Path) :
    Except FileError FileTree := do
  let directory ← tree.enclosing here path
  let location := directory ++ path.steps.getLast?.toList
  match tree.node? location with
  | some _ => .error .alreadyExists
  | none => return tree.put location (.link target)

/-- The contents that can be read below a directory, by the names on the way from it. A number of
    links is followed; a link that leads nowhere counts as empty. -/
def contentsWithin (tree : FileTree) : Nat → Location → List (Location × ByteArray)
  | 0, _ => []
  | links + 1, here =>
    tree.entries.flatMap fun (location, node) =>
      if here.isPrefixOf location then
        let names := location.drop here.length
        match node with
        | .directory => []
        | .file contents => [(names, contents)]
        | .link _ =>
          match tree.walk false linkLimit [] location with
          | .ok (.entry _ (.file contents)) => [(names, contents)]
          | .ok (.entry there .directory) =>
            (tree.contentsWithin links there).map fun (rest, contents) => (names ++ rest, contents)
          | _ => [(names, ByteArray.empty)]
      else []

/-- The contents that can be read below a directory, by the names on the way from it. -/
def contentsBelow (tree : FileTree) (here : Location) : List (Location × ByteArray) :=
  tree.contentsWithin linkLimit here

end FileTree

end TinyScript
