import TinyScript.CompileError
import TinyScript.Number.Numeral
import TinyScript.Program
import TinyScript.Cpp.Includes

/-!
# C++ text

The C++ text of a program: its include block, then its statements with an empty line between them.
C++ has no functions in functions and no return outside of a function, so that programs with such
statements have no C++ text.
-/

namespace TinyScript.Cpp

/-- A character as it stands in a C++ string literal. -/
def escapeChar : Char → List Char
  | '"' => ['\\', '"']
  | '\\' => ['\\', '\\']
  | '\n' => ['\\', 'n']
  | '\r' => ['\\', 'r']
  | '\t' => ['\\', 't']
  | char => [char]

/-- A text as it stands in a C++ string literal. -/
def escape (value : String) : String :=
  String.ofList (value.toList.flatMap escapeChar)

/-- A C++ string literal. -/
def literal (value : String) : String :=
  "\"" ++ escape value ++ "\""

/-- The C++ text of an operand, in parentheses where its grouping would be lost without them. -/
def operandText (text : String) (precedence parent : Nat) (isRight : Bool) : String :=
  if precedence < parent || (isRight && precedence == parent) then "(" ++ text ++ ")" else text

/-- The C++ text of an expression. -/
def expression : Expression → String
  | .binary operator left right =>
    let left := operandText (expression left) left.precedence operator.precedence false
    let right := operandText (expression right) right.precedence operator.precedence true
    left ++ " " ++ operator.symbol ++ " " ++ right
  | .identifier name => name
  | .number value => value.numeral .plain
  | .string value => literal value

/-- The C++ text of a variable's declaration. -/
def variableText (name sourceType : String) (value : Expression) : String :=
  typeName sourceType ++ " " ++ name ++ " = " ++ expression value ++ ";"

/-- The C++ text of a return. -/
def returnText : Option Expression → String
  | some argument => "return " ++ expression argument ++ ";"
  | none => "return;"

/-- The C++ text of a parameter. -/
def parameterText (parameter : Parameter) : String :=
  typeName parameter.typeName ++ " " ++ parameter.name

/-- The C++ text of a statement in the body of the function with the given name. -/
def innerText (outer : String) : Statement → Except EmitError String
  | .variableDeclaration name typeName value => .ok (variableText name typeName value)
  | .functionDeclaration name .. => .error (.nestedFunction name outer)
  | .returnStatement argument => .ok (returnText argument)

/-- The C++ text of a function. -/
def functionText (indent name : String) (parameters : List Parameter) (returnType : String)
    (body : List Statement) : Except EmitError String := do
  let lines ← body.mapM (innerText name)
  return typeName returnType ++ " " ++ name ++ "(" ++
    String.intercalate ", " (parameters.map parameterText) ++ ") \x7b\n" ++
    String.join (lines.map fun line => indent ++ line ++ "\n") ++ "\x7d"

/-- The C++ text of a statement of the program itself. -/
def outerText (indent : String) : Statement → Except EmitError String
  | .variableDeclaration name typeName value => .ok (variableText name typeName value)
  | .functionDeclaration name parameters returnType body =>
    functionText indent name parameters returnType body
  | .returnStatement _ => .error .topLevelReturn

mutual

/-- The type names in a statement in the order of their use: a function's own type comes before
    those of its parameters. -/
def typesUsed : Statement → List String
  | .variableDeclaration _ typeName _ => [typeName]
  | .functionDeclaration _ parameters returnType body =>
    returnType :: parameters.map Parameter.typeName ++ typesUsedInAll body
  | .returnStatement _ => []

/-- The type names in statements in the order of their use. -/
def typesUsedInAll : List Statement → List String
  | [] => []
  | statement :: rest => typesUsed statement ++ typesUsedInAll rest

end

/-- The headers that a program needs. -/
def includesOf (program : Program) : Includes :=
  (typesUsedInAll program.body).foldl Includes.requireType {}

/-- The C++ text of a program without its include block. -/
def bodyText (indent : String) (program : Program) : Except EmitError String := do
  let texts ← program.body.mapM (outerText indent)
  return if texts.isEmpty then "" else String.intercalate "\n\n" texts ++ "\n"

/-- The indentation of statements in functions where none is asked for. -/
def defaultIndent : String := "    "

/-- The C++ text of a program. -/
def emit (indent : String) (program : Program) : Except EmitError String := do
  return (includesOf program).render ++ (← bodyText indent program)

end TinyScript.Cpp
