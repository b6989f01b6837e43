import TinyScript.Number.Numeral

/-!
# JSON values and their text

Objects keep the order of their members and may repeat a key. Numbers keep the form in which they
were written: whole numbers without a point, of either sign, are apart from the others.
-/

namespace TinyScript

/-- A number of JSON. -/
inductive JsonNumber where
  | natural (value : Nat)
  | negative (magnitude : Nat)
  | real (value : Binary64)
  deriving DecidableEq, Repr

/-- The text of a number. -/
def JsonNumber.render : JsonNumber → String
  | natural value => toString value
  | negative magnitude => "-" ++ toString magnitude
  | real value => value.numeral .json

/-- A JSON value. -/
inductive Json where
  | null
  | bool (value : Bool)
  | number (value : JsonNumber)
  | string (value : String)
  | array (items : List Json)
  | object (members : List (String × Json))
  deriving Repr

namespace Json

/-- A four-digit escape of a character below `U+0100`. -/
def hexEscape (char : Char) : List Char :=
  ['\\', 'u', '0', '0', Nat.digitChar (char.toNat / 16), Nat.digitChar (char.toNat % 16)]

/-- A character as it stands in a JSON string. -/
def escapeChar : Char → List Char
  | '"' => ['\\', '"']
  | '\\' => ['\\', '\\']
  | '\x08' => ['\\', 'b']
  | '\t' => ['\\', 't']
  | '\n' => ['\\', 'n']
  | '\x0c' => ['\\', 'f']
  | '\r' => ['\\', 'r']
  | char => if char.toNat < 0x20 then hexEscape char else [char]

/-- A JSON string. -/
def quote (value : String) : String :=
  "\"" ++ String.ofList (value.toList.flatMap escapeChar) ++ "\""

/-- The white space of a layout: what stands before an item at some depth, and behind a key. -/
structure Layout where
  line : Nat → String
  colon : String

/-- No white space at all. -/
def Layout.compact : Layout where
  line _ := ""
  colon := ":"

/-- One item a line, two blanks a level. -/
def Layout.pretty : Layout where
  line depth := "\n" ++ String.ofList (List.replicate (2 * depth) ' ')
  colon := ": "

mutual

/-- The text of a value inside some number of arrays and objects. -/
def render (layout : Layout) (depth : Nat) : Json → String
  | null => "null"
  | bool true => "true"
  | bool false => "false"
  | number value => value.render
  | string value => quote value
  | array [] => "[]"
  | array (item :: items) =>
    "[" ++ renderItems layout (depth + 1) (item :: items) ++ layout.line depth ++ "]"
  | object [] => "\x7b\x7d"
  | object (member :: members) =>
    "\x7b" ++ renderMembers layout (depth + 1) (member :: members) ++ layout.line depth ++ "\x7d"

/-- The texts of items with commas between them. -/
def renderItems (layout : Layout) (depth : Nat) : List Json → String
  | [] => ""
  | [item] => layout.line depth ++ render layout depth item
  | item :: items =>
    layout.line depth ++ render layout depth item ++ "," ++ renderItems layout depth items

/-- The texts of members with commas between them. -/
def renderMembers (layout : Layout) (depth : Nat) : List (String × Json) → String
  | [] => ""
  | [(key, value)] =>
    layout.line depth ++ quote key ++ layout.colon ++ render layout depth value
  | (key, value) :: members =>
    layout.line depth ++ quote key ++ layout.colon ++ render layout depth value ++ "," ++
      renderMembers layout depth members

end

/-- The text with one item a line. -/
def pretty (json : Json) : String :=
  json.render .pretty 0

/-- The text without white space. -/
def compact (json : Json) : String :=
  json.render .compact 0

mutual

/-- How deep arrays and objects are nested in a value. -/
def depth : Json → Nat
  | array items => depthOfItems items + 1
  | object members => depthOfMembers members + 1
  | _ => 0

/-- How deep arrays and objects are nested in the deepest of some values. -/
def depthOfItems : List Json → Nat
  | [] => 0
  | item :: items => max (depth item) (depthOfItems items)

/-- How deep arrays and objects are nested in the deepest value of some members. -/
def depthOfMembers : List (String × Json) → Nat
  | [] => 0
  | (_, value) :: members => max (depth value) (depthOfMembers members)

end

end Json

end TinyScript
