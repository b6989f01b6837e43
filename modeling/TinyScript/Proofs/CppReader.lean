import TinyScript.Cpp.Emit
import TinyScript.Text.Blank
import TinyScript.Token.Cursor

/-!
# Reading C++ text

A reader for the part of C++ that programs are written in: an include line for `string`, then
declarations `T x = e;` and functions `T f(T a, ...) { ... }` with declarations and returns in them.
The types are `int` and `std::string`. Expressions have the operators of arithmetic with their
usual precedence, grouped to the left, parentheses, and string literals with escapes. The reader
knows nothing of how the text is laid out; any word may be a name where a name is expected.
-/

namespace TinyScript.Cpp

/-! ## Pieces of a text -/

/-- A token of C++ text; a literal has the text that it denotes. -/
inductive Piece where
  | word (text : String)
  | numeral (digits : String)
  | literal (value : String)
  | mark (char : Char)
  | scope
  deriving DecidableEq, Repr

/-- What a place in a text is the middle of, with the characters read so far. -/
inductive Part where
  | gap
  | word (read : List Char)
  | numeral (read : List Char)
  | literal (read : List Char)
  | escape (read : List Char)
  | colon
  deriving DecidableEq, Repr

/-- The characters that are pieces by themselves. -/
def markChars : List Char :=
  ['+', '-', '*', '/', '(', ')', '\x7b', '\x7d', ';', ',', '=']

/-- The character that is written with a backslash and another one. -/
def unescape? : Char → Option Char
  | '"' => some '"'
  | '\\' => some '\\'
  | 'n' => some '\n'
  | 'r' => some '\r'
  | 't' => some '\t'
  | _ => none

/-- Takes a character where no piece is open: the pieces that end with it, and what is open then. -/
def start? (char : Char) : Option (List Piece × Part) :=
  if isBlank char then some ([], .gap)
  else if isWordStart char then some ([], .word [char])
  else if char.isDigit then some ([], .numeral [char])
  else if char = '"' then some ([], .literal [])
  else if char = ':' then some ([], .colon)
  else if markChars.contains char then some ([.mark char], .gap)
  else none

/-- Takes a character: the pieces that end before or with it, and what is open then. -/
def step? : Part → Char → Option (List Piece × Part)
  | .gap, char => start? char
  | .word read, char =>
    if isWordPart char then some ([], .word (read ++ [char]))
    else (start? char).map fun (pieces, part) => (.word (String.ofList read) :: pieces, part)
  | .numeral read, char =>
    if char.isDigit then some ([], .numeral (read ++ [char]))
    else if isWordPart char then none
    else (start? char).map fun (pieces, part) => (.numeral (String.ofList read) :: pieces, part)
  | .literal read, char =>
    if char = '"' then some ([.literal (String.ofList read)], .gap)
    else if char = '\\' then some ([], .escape read)
    else if char = '\n' || char = '\r' then none
    else some ([], .literal (read ++ [char]))
  | .escape read, char => (unescape? char).map fun char => ([], .literal (read ++ [char]))
  | .colon, char => if char = ':' then some ([.scope], .gap) else none

/-- The piece that the end of a text ends; a literal cannot stay open. -/
def finish? : Part → Option (List Piece)
  | .gap => some []
  | .word read => some [.word (String.ofList read)]
  | .numeral read => some [.numeral (String.ofList read)]
  | .literal _ | .escape _ | .colon => none

/-- The pieces of a text, from a place in it on. -/
def pieces? : Part → List Char → Option (List Piece)
  | part, [] => finish? part
  | part, char :: rest => do
    let (ended, part) ← step? part char
    let more ← pieces? part rest
    return ended ++ more

/-! ## Reading pieces -/

/-- A reader takes pieces from the front and leaves the others. -/
abbrev Reader (α : Type) := List Piece → Option (α × List Piece)

namespace Reader

/-- The types, as the source language calls them. -/
def type : Reader String
  | .word "int" :: rest => some ("number", rest)
  | .word "std" :: .scope :: .word "string" :: rest => some ("string", rest)
  | _ => none

/-- A word, taken as a name. -/
def name : Reader String
  | .word text :: rest => some (text, rest)
  | _ => none

/-- Passes a mark. -/
def mark (char : Char) (pieces : List Piece) : Option (List Piece) :=
  match pieces with
  | .mark other :: rest => if other = char then some rest else none
  | _ => none

/-- One of the given operators. -/
def operator (operators : List Operator) : Reader Operator
  | .mark char :: rest =>
    (operators.find? fun operator => operator.symbol = String.ofList [char]).map (·, rest)
  | _ => none

/-- Further operands joined to an expression by the given operators, grouped to the left. -/
def joined (operators : List Operator) (operand : Reader Expression) :
    Nat → Expression → Reader Expression
  | 0, left, pieces => some (left, pieces)
  | rounds + 1, left, pieces =>
    match operator operators pieces with
    | some (operator, rest) => do
      let (right, rest) ← operand rest
      joined operators operand rounds (.binary operator left right) rest
    | none => some (left, pieces)

/-- Operands joined by the given operators. -/
def chain (operators : List Operator) (operand : Reader Expression) (rounds : Nat) :
    Reader Expression := fun pieces => do
  let (first, rest) ← operand pieces
  joined operators operand rounds first rest

/-- A name, a literal, or an inner expression in parentheses. -/
def factor (inner : Reader Expression) : Reader Expression
  | .word text :: rest => some (.identifier text, rest)
  | .numeral digits :: rest => do
    let value ← Binary64.ofDigits? digits.toList
    return (.number value, rest)
  | .literal value :: rest => some (.string value, rest)
  | .mark '(' :: rest => do
    let (expression, rest) ← inner rest
    let rest ← mark ')' rest
    return (expression, rest)
  | _ => none

/-- An expression: sums of products of factors. -/
def expression : Nat → Reader Expression
  | 0, _ => none
  | bound + 1, pieces =>
    chain [.add, .sub] (chain [.mul, .div] (factor (expression bound)) bound) bound pieces

/-- The value of a declaration behind its type, its name and the sign of equality. -/
def declaration (bound : Nat) (typeName name : String) : Reader Statement := fun pieces => do
  let (value, rest) ← expression bound pieces
  let rest ← mark ';' rest
  return (.variableDeclaration name typeName value, rest)

/-- A return behind its keyword. -/
def returned (bound : Nat) : Reader Statement
  | .mark ';' :: rest => some (.returnStatement none, rest)
  | pieces => do
    let (argument, rest) ← expression bound pieces
    let rest ← mark ';' rest
    return (.returnStatement (some argument), rest)

/-- A statement in the body of a function. -/
def inner (bound : Nat) : Reader Statement
  | .word "return" :: rest => returned bound rest
  | pieces => do
    let (typeName, rest) ← type pieces
    let (name, rest) ← name rest
    let rest ← mark '=' rest
    declaration bound typeName name rest

/-- Parameters up to the closing parenthesis, at least one. -/
def parameters : Nat → Reader (List Parameter)
  | 0, _ => none
  | rounds + 1, pieces => do
    let (typeName, rest) ← type pieces
    let (name, rest) ← name rest
    match rest with
    | .mark ',' :: rest => do
      let (more, rest) ← parameters rounds rest
      return (⟨name, typeName⟩ :: more, rest)
    | _ => do
      let rest ← mark ')' rest
      return ([⟨name, typeName⟩], rest)

/-- The parameters of a function behind the opening parenthesis. -/
def parameterList (bound : Nat) : Reader (List Parameter)
  | .mark ')' :: rest => some ([], rest)
  | pieces => parameters bound pieces

/-- Statements up to a place that is recognized by what follows there. -/
def statementsUntil (ends : List Piece → Bool) (statement : Reader Statement) :
    Nat → Reader (List Statement)
  | 0, pieces => if ends pieces then some ([], pieces) else none
  | rounds + 1, pieces =>
    if ends pieces then some ([], pieces)
    else do
      let (first, rest) ← statement pieces
      let (more, rest) ← statementsUntil ends statement rounds rest
      return (first :: more, rest)

/-- A function behind its type, its name and the opening parenthesis. -/
def function (bound : Nat) (returnType name : String) : Reader Statement := fun pieces => do
  let (parameters, rest) ← parameterList bound pieces
  let rest ← mark '\x7b' rest
  let (body, rest) ← statementsUntil (·.head? = some (.mark '\x7d')) (inner bound) bound rest
  let rest ← mark '\x7d' rest
  return (.functionDeclaration name parameters returnType body, rest)

/-- A statement of the program itself: what stands behind its name tells which. -/
def outer (bound : Nat) : Reader Statement := fun pieces => do
  let (typeName, rest) ← type pieces
  let (name, rest) ← name rest
  match rest with
  | .mark '=' :: rest => declaration bound typeName name rest
  | .mark '(' :: rest => function bound typeName name rest
  | _ => none

end Reader

/-- The line that makes strings known. -/
def includeLine : List Char := "#include <string>\n".toList

/-- The text behind its include line, if it has one. -/
def behindInclude (text : List Char) : List Char :=
  if includeLine.isPrefixOf text then text.drop includeLine.length else text

/-- The program that a C++ text denotes. -/
def read (text : String) : Option Program := do
  let pieces ← pieces? .gap (behindInclude text.toList)
  let (body, _) ←
    Reader.statementsUntil List.isEmpty (Reader.outer pieces.length) pieces.length pieces
  return ⟨body⟩

end TinyScript.Cpp
