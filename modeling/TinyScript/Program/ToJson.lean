import TinyScript.Json
import TinyScript.Program

/-!
# Programs as JSON

A statement and an expression are objects whose member `type` names their form; their parts follow
in a fixed order.
-/

namespace TinyScript

/-- An expression as JSON. -/
def Expression.toJson : Expression → Json
  | .binary operator left right => .object [
      ("type", .string "BinaryExpression"),
      ("operator", .string operator.symbol),
      ("left", left.toJson),
      ("right", right.toJson)]
  | .identifier name => .object [("type", .string "Identifier"), ("name", .string name)]
  | .number value => .object [("type", .string "NumericLiteral"), ("value", .number (.real value))]
  | .string value => .object [("type", .string "StringLiteral"), ("value", .string value)]

/-- A parameter as JSON. -/
def Parameter.toJson (parameter : Parameter) : Json :=
  .object [("name", .string parameter.name), ("param_type", .string parameter.typeName)]

mutual

/-- A statement as JSON. -/
def Statement.toJson : Statement → Json
  | .variableDeclaration name typeName value => .object [
      ("type", .string "VariableDeclaration"),
      ("identifier", .string name),
      ("value_type", .string typeName),
      ("value", value.toJson)]
  | .functionDeclaration name parameters returnType body => .object [
      ("type", .string "FunctionDeclaration"),
      ("identifier", .string name),
      ("parameters", .array (parameters.map Parameter.toJson)),
      ("return_type", .string returnType),
      ("body", .array (Statement.allToJson body))]
  | .returnStatement argument => .object [
      ("type", .string "ReturnStatement"),
      ("argument", argument.elim .null Expression.toJson)]

/-- Statements as JSON. -/
def Statement.allToJson : List Statement → List Json
  | [] => []
  | statement :: rest => statement.toJson :: Statement.allToJson rest

end

/-- A program as JSON. -/
def Program.toJson (program : Program) : Json :=
  .object [("body", .array (Statement.allToJson program.body))]

/-- The JSON text of a program. -/
def Program.toJsonText (program : Program) : String :=
  program.toJson.pretty

end TinyScript
