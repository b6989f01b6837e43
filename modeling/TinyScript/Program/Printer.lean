import TinyScript.Program
import TinyScript.Number.Numeral

/-!
# Printing programs

The canonical source text of a program: one statement a line, four blanks for each function around
it, `let` for every declaration, and no parentheses but the necessary ones.
-/

namespace TinyScript

/-- A string literal of source text. There are no escapes, so the quote is chosen to be one that the
    value does not hold; a value that holds both has no proper literal. -/
def quoteLiteral (value : String) : String :=
  let quote := if value.toList.contains '"' then "'" else "\""
  quote ++ value ++ quote

/-- Writes an operand behind what is written already. It stands in parentheses if it binds weaker
    than the operator around it, or, on the right, as strong as that. -/
def writeOperand (write : String → String) (precedence parent : Nat) (isRight : Bool)
    (written : String) : String :=
  if precedence < parent || (isRight && precedence == parent) then write (written ++ "(") ++ ")"
  else write written

/-- Writes an expression behind what is written already. -/
def Expression.write : Expression → String → String
  | .binary operator left right, written =>
    let parent := operator.precedence
    let written := writeOperand left.write left.precedence parent false written
    let written := written ++ " " ++ operator.symbol ++ " "
    writeOperand right.write right.precedence parent true written
  | .identifier name, written => written ++ name
  | .number value, written => written ++ value.numeral .plain
  | .string value, written => written ++ quoteLiteral value

/-- The source text of an expression. -/
def Expression.print (expression : Expression) : String :=
  expression.write ""

/-- The source text of a parameter. -/
def Parameter.print (parameter : Parameter) : String :=
  parameter.name ++ ": " ++ parameter.typeName

/-- The blanks before a statement at some depth of functions. -/
def margin (depth : Nat) : String :=
  String.ofList (List.replicate (4 * depth) ' ')

mutual

/-- The lines of a statement at some depth of functions. -/
def Statement.print (depth : Nat) : Statement → String
  | .variableDeclaration name typeName value =>
    margin depth ++ "let " ++ name ++ ": " ++ typeName ++ " = " ++ value.print ++ ";\n"
  | .functionDeclaration name parameters returnType body =>
    margin depth ++ "function " ++ name ++ "(" ++
      String.intercalate ", " (parameters.map Parameter.print) ++ "): " ++
      returnType ++ " \x7b\n" ++
      Statement.printAll (depth + 1) body ++
      margin depth ++ "\x7d\n"
  | .returnStatement (some argument) => margin depth ++ "return " ++ argument.print ++ ";\n"
  | .returnStatement none => margin depth ++ "return;\n"

/-- The lines of statements at some depth of functions. -/
def Statement.printAll (depth : Nat) : List Statement → String
  | [] => ""
  | statement :: rest => statement.print depth ++ Statement.printAll depth rest

end

/-- The canonical source text of a program. -/
def Program.print (program : Program) : String :=
  Statement.printAll 0 program.body

end TinyScript
