/-!
# Positions in a text

A position counts characters from the start of a text, and lines and columns as an editor shows
them. Only the line feed starts a new line.
-/

namespace TinyScript

/-- A place in a text: characters before it, its line, and its column in that line. Lines and
    columns count from one. -/
structure Position where
  offset : Nat
  line : Nat
  column : Nat
  deriving DecidableEq, Repr

namespace Position

/-- The start of a text. -/
def start : Position := ⟨0, 1, 1⟩

/-- The place behind one character. -/
def next (position : Position) (char : Char) : Position :=
  if char = '\n' then ⟨position.offset + 1, position.line + 1, 1⟩
  else ⟨position.offset + 1, position.line, position.column + 1⟩

/-- The place behind a stretch of text. -/
def after (position : Position) (text : List Char) : Position :=
  text.foldl next position

@[simp]
theorem after_nil (position : Position) : position.after [] = position := rfl

@[simp]
theorem after_cons (position : Position) (char : Char) (text : List Char) :
    position.after (char :: text) = (position.next char).after text := rfl

theorem after_append (position : Position) (first second : List Char) :
    position.after (first ++ second) = (position.after first).after second :=
  List.foldl_append

end Position

end TinyScript
