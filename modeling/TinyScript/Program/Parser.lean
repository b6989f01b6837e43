import TinyScript.Program
import TinyScript.Token.Cursor

/-!
# Reading programs

The grammar of programs, over the tokens of a source text:

```text
Program             := Statement*
Statement           := VariableDeclaration | FunctionDeclaration | ReturnStatement
VariableDeclaration := VarKeyword Identifier ':' TypeKeyword '=' Expression ';'
FunctionDeclaration := 'function' Identifier '(' Parameters? ')' ':' TypeKeyword '{' Statement* '}'
Parameters          := Parameter (',' Parameter)*
Parameter           := Identifier ':' TypeKeyword
ReturnStatement     := 'return' Expression? ';'
Expression          := Term (('+' | '-') Term)*
Term                := Factor (('*' | '/') Factor)*
Factor              := '(' Expression ')' | Literal
Literal             := Number | String | Identifier
```

One token of lookahead decides everywhere. A place where no token starts is reported as soon as it
would become the lookahead. Nesting and repetition are bounded by the number of tokens that are
left, since every level and every round takes at least one: readers with a bound read as far as the
tokens go when it exceeds their number.
-/

namespace TinyScript

/-- An error, with the cursor from which reading could go on: behind the lookahead. -/
structure Failure where
  error : ParseError
  resume : Cursor
  deriving DecidableEq, Repr

/-- A reader of tokens: its state is what is left of the feed. -/
abbrev Parser := StateT Feed (Except Failure)

/-- The cursor behind the lookahead. -/
def Feed.resume (feed : Feed) : Cursor :=
  match feed.lexemes with
  | lexeme :: _ => lexeme.behind
  | [] => feed.ending.cursor

/-- Refuses a feed that has no tokens left because the text goes wrong there. -/
def Feed.guard (feed : Feed) : Except Failure Feed :=
  match feed.lexemes, feed.ending with
  | [], .fault error cursor => .error ⟨.lexical error, cursor⟩
  | _, _ => .ok feed

/-- The failure of a feed that does not start as expected. -/
def Feed.unexpected (feed : Feed) (expected : Expected) : Failure :=
  let found := feed.lexemes.head?.map Lexeme.token
  let position := (found.map Token.start).getD feed.ending.cursor.position
  ⟨.grammatical (.unexpected expected found position), feed.resume⟩

namespace Parser

/-- The lookahead, if the input has not ended. -/
def peek : Parser (Option Token) := do
  return (← get).lexemes.head?.map Lexeme.token

/-- Whether the lookahead is of the given kind. -/
def check (kind : TokenKind) : Parser Bool := do
  return (← peek).any (·.kind = kind)

/-- Fails at the lookahead. -/
def unexpected {α : Type} (expected : Expected) : Parser α := do
  throw ((← get).unexpected expected)

/-- Passes the lookahead, which has to be of the given kind. -/
def eat (kind : TokenKind) : Parser Token := fun feed =>
  match feed.lexemes with
  | lexeme :: rest =>
    if lexeme.token.kind = kind then do
      return (lexeme.token, ← { feed with lexemes := rest }.guard)
    else .error (feed.unexpected (.token kind))
  | [] => .error (feed.unexpected (.token kind))

/-- How many tokens are left. -/
def remaining : Parser Nat := do
  return (← get).lexemes.length

/-- The lookahead as one of the given operators. -/
def operator? (operators : List Operator) : Parser (Option Operator) := do
  match ← peek with
  | some token =>
    if token.kind = .operator then
      return (Operator.ofSymbol? token.text).filter (operators.contains ·)
    else return none
  | none => return none

/-- Further operands joined to an expression by the given operators, grouped to the left. -/
def operations (operators : List Operator) (operand : Parser Expression) :
    Nat → Expression → Parser Expression
  | 0, left => return left
  | rounds + 1, left => do
    match ← operator? operators with
    | some operator =>
      discard <| eat .operator
      operations operators operand rounds (.binary operator left (← operand))
    | none => return left

/-- Operands joined by the given operators. -/
def chain (bound : Nat) (operators : List Operator) (operand : Parser Expression) :
    Parser Expression := do
  operations operators operand bound (← operand)

/-- A literal or an identifier. -/
def literal : Parser Expression := do
  match (← peek).map Token.kind with
  | some .number =>
    let token ← eat .number
    match Binary64.ofDigits? token.text.toList with
    | some value => return .number value
    | none => throw ⟨.grammatical (.numberTooLarge token.text token.start), (← get).resume⟩
  | some .string => return .string (← eat .string).unquoted
  | some .identifier => return .identifier (← eat .identifier).text
  | _ => unexpected .operand

/-- A literal, or an inner expression in parentheses. -/
def factor (inner : Parser Expression) : Parser Expression := do
  if ← check .lParen then
    discard <| eat .lParen
    let expression ← inner
    discard <| eat .rParen
    return expression
  else literal

/-- An expression. -/
def expression : Nat → Parser Expression
  | 0 => unexpected .operand
  | bound + 1 =>
    chain bound [.add, .sub] (chain bound [.mul, .div] (factor (expression bound)))

/-- A declaration of a variable. -/
def variableDeclaration (bound : Nat) : Parser Statement := do
  discard <| eat .varKeyword
  let name ← eat .identifier
  discard <| eat .colon
  let typeName ← eat .typeKeyword
  discard <| eat .assign
  let value ← expression bound
  discard <| eat .semicolon
  return .variableDeclaration name.text typeName.text value

/-- A parameter of a function. -/
def parameter : Parser Parameter := do
  let name ← eat .identifier
  discard <| eat .colon
  let typeName ← eat .typeKeyword
  return ⟨name.text, typeName.text⟩

/-- Further parameters, each behind a comma. -/
def moreParameters : Nat → Parser (List Parameter)
  | 0 => return []
  | rounds + 1 => do
    if ← check .comma then
      discard <| eat .comma
      return (← parameter) :: (← moreParameters rounds)
    else return []

/-- The parameters of a function in their parentheses. -/
def parameters (bound : Nat) : Parser (List Parameter) := do
  discard <| eat .lParen
  if ← check .rParen then
    discard <| eat .rParen
    return []
  else
    let first ← parameter
    let more ← moreParameters bound
    discard <| eat .rParen
    return first :: more

/-- Statements up to a closing brace, which is not passed. -/
def statementsToBrace (owner : String) (statement : Parser Statement) :
    Nat → Parser (List Statement)
  | 0 => return []
  | rounds + 1 => do
    match ← peek with
    | some token =>
      if token.kind = .rBrace then return []
      else return (← statement) :: (← statementsToBrace owner statement rounds)
    | none => unexpected (.bodyEnd owner)

/-- The body of the function with the given name. -/
def block (bound : Nat) (owner : String) (statement : Parser Statement) :
    Parser (List Statement) := do
  discard <| eat .lBrace
  let body ← statementsToBrace owner statement bound
  discard <| eat .rBrace
  return body

/-- A declaration of a function, given a reader for the statements of its body. -/
def functionDeclaration (bound : Nat) (statement : Parser Statement) : Parser Statement := do
  discard <| eat .functionKeyword
  let name ← eat .identifier
  let parameters ← parameters bound
  discard <| eat .colon
  let returnType ← eat .typeKeyword
  let body ← block bound name.text statement
  return .functionDeclaration name.text parameters returnType.text body

/-- A return from a function. -/
def returnStatement (bound : Nat) : Parser Statement := do
  discard <| eat .returnKeyword
  if ← check .semicolon then
    discard <| eat .semicolon
    return .returnStatement none
  else
    let argument ← expression bound
    discard <| eat .semicolon
    return .returnStatement (some argument)

/-- A statement. -/
def statement : Nat → Parser Statement
  | 0 => unexpected .statement
  | bound + 1 => do
    match (← peek).map Token.kind with
    | some .varKeyword => variableDeclaration bound
    | some .functionKeyword => functionDeclaration bound (statement bound)
    | some .returnKeyword => returnStatement bound
    | _ => unexpected .statement

/-- Statements up to the end of the input. -/
def statementsToEnd (statement : Parser Statement) : Nat → Parser (List Statement)
  | 0 => return []
  | rounds + 1 => do
    match ← peek with
    | some _ => return (← statement) :: (← statementsToEnd statement rounds)
    | none => return []

/-- A whole program. -/
def program : Parser Program := do
  let bound := (← remaining) + 1
  return ⟨← statementsToEnd (statement bound) bound⟩

end Parser

/-- Reads a program from a cursor on. The second part is the cursor from which a further reading
    goes on: behind the last token that was looked at. -/
def Cursor.parse (cursor : Cursor) : Except ParseError Program × Cursor :=
  match cursor.feed.guard >>= Parser.program with
  | .ok (program, feed) => (.ok program, feed.resume)
  | .error failure => (.error failure.error, failure.resume)

/-- The program that a text denotes. -/
def Program.parse (source : String) : Except ParseError Program :=
  (Cursor.ofText source).parse.1

/-- The answers of reading from a cursor again and again, each time from where the last reading
    stopped. -/
def Cursor.parseRepeatedly : Nat → Cursor → List (Except ParseError Program)
  | 0, _ => []
  | times + 1, cursor => cursor.parse.1 :: parseRepeatedly times cursor.parse.2

end TinyScript
