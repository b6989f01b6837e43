/-!
# Paths

A path is a text of segments with slashes between them. Empty segments and single dots name nothing,
except that a leading empty segment stands for the root and a leading dot is kept; what is left are
the components. The file name is the last component unless it is a dot or two dots.
-/

namespace TinyScript

/-- A path as it is written. -/
structure Path where
  text : String
  deriving DecidableEq, Repr

/-- A stretch of a path without slashes. -/
abbrev Segment := List Char

namespace Path

/-- The stretches of a text between its slashes. -/
def segmentsOf : List Char → List Segment
  | [] => [[]]
  | char :: rest =>
    if char = '/' then [] :: segmentsOf rest
    else
      match segmentsOf rest with
      | segment :: segments => (char :: segment) :: segments
      | [] => [[char]]

/-- The segments of a path. -/
def segments (path : Path) : List Segment :=
  segmentsOf path.text.toList

/-- The path with given segments. -/
def ofSegments (segments : List Segment) : Path :=
  ⟨String.ofList (['/'].intercalate segments)⟩

/-- The empty path. -/
def empty : Path := ⟨""⟩

/-- The root of all paths. -/
def root : Path := ⟨"/"⟩

/-- Whether a path starts at the root. -/
def isAbsolute (path : Path) : Bool :=
  path.text.toList.head? = some '/'

/-- Whether a path ends in a slash. -/
def endsInSlash (path : Path) : Bool :=
  path.text.toList.getLast? = some '/'

/-- Reversed segments without those at the end that name nothing. -/
def trim : List Segment → List Segment
  | [] => []
  | [first] => [first]
  | segment :: rest => if segment = [] || segment = ['.'] then trim rest else segment :: rest

/-- The last component and the reversed segments before it. -/
def splitLast? (path : Path) : Option (List Segment × Segment) :=
  match trim path.segments.reverse with
  | [] => none
  | last :: before => if last.isEmpty then none else some (before, last)

/-- The path of reversed segments, without those at the end that name nothing. -/
def ofTrimmed (before : List Segment) : Path :=
  match trim before with
  | [] => empty
  | [[]] => root
  | segments => ofSegments segments.reverse

/-- The path without its last component, if it has one. -/
def parent? (path : Path) : Option Path :=
  path.splitLast?.map fun (before, _) => ofTrimmed before

/-- The file name and the reversed segments before it. -/
def splitName? (path : Path) : Option (List Segment × Segment) :=
  path.splitLast?.filter fun (_, last) => last ≠ ['.'] && last ≠ ['.', '.']

/-- A file name without its extension: up to the last dot, unless that is its first character. -/
def stemOf (name : Segment) : Segment :=
  match name.reverse.dropWhile (· ≠ '.') with
  | _ :: before => if before.isEmpty then name else before.reverse
  | [] => name

/-- The extension of a file name: what follows the dot behind its stem. -/
def extensionOf (name : Segment) : Segment :=
  name.drop ((stemOf name).length + 1)

/-- The path without as many characters at its end as the extension of its file name has. Slashes
    and dots behind the file name count among them. -/
def shortened (path : Path) : Path :=
  let extension := path.splitName?.elim [] fun (_, name) => extensionOf name
  ⟨String.ofList (path.text.toList.take (path.text.length - extension.length))⟩

/-- The file name without its extension; empty where there is no file name. -/
def stem (path : Path) : Segment :=
  path.splitName?.elim [] fun (_, name) => stemOf name

/-- A path seen from another one. -/
def join (path other : Path) : Path :=
  if other.isAbsolute then other
  else if path.text.isEmpty || path.endsInSlash then ⟨path.text ++ other.text⟩
  else ⟨path.text ++ "/" ++ other.text⟩

/-- The path with another extension; an empty one takes its dot along. The old extension is cut off
    first, and if that leaves no file name, the path stays as it is then. -/
def withExtension (path : Path) (extension : String) : Path :=
  match path.shortened.splitName? with
  | none => path.shortened
  | some (before, name) =>
    let ending := if extension.isEmpty then [] else '.' :: extension.toList
    ofSegments ((stemOf name ++ ending) :: before).reverse

/-- The path with another file name, or with one if it has none. -/
def withFileName (path : Path) (name : String) : Path :=
  match path.splitName? with
  | none => path.join ⟨name⟩
  | some (before, _) => (ofTrimmed before).join ⟨name⟩

/-- The path and those around it, up to but without the root and the empty path. -/
def ancestors (path : Path) : List Path :=
  go path.text.length path
where
  go : Nat → Path → List Path
  | 0, _ => []
  | bound + 1, path =>
    match path.parent? with
    | none => []
    | some parent => path :: go bound parent

/-- The names on the way to a path's target, without empty ones. -/
def steps (path : Path) : List String :=
  (path.segments.filter (!·.isEmpty)).map String.ofList

end Path

/-! ## Where artifacts go -/

/-- The path of the C++ text for an input. An extension with a slash in it is none. -/
def outputPath? (input : Path) (extension : String) : Option Path :=
  if extension.toList.contains '/' then none else some (input.withExtension extension)

/-- The path of the tree for an input. -/
def astPath (input : Path) (suffix : String) : Path :=
  input.withFileName (String.ofList input.stem ++ suffix)

end TinyScript
