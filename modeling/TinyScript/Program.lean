import TinyScript.Number.Binary64

/-!
# Programs

The tree of a program: declarations, functions and returns over arithmetic expressions. Names and
types are arbitrary texts, because a tree may also come from elsewhere than source text.
-/

namespace TinyScript

/-- The operators of arithmetic. -/
inductive Operator where
  | add
  | sub
  | mul
  | div
  deriving DecidableEq, Repr

namespace Operator

/-- The operator as it is written. -/
def symbol : Operator → String
  | add => "+"
  | sub => "-"
  | mul => "*"
  | div => "/"

/-- The operator that a text denotes. -/
def ofSymbol? : String → Option Operator
  | "+" => some add
  | "-" => some sub
  | "*" => some mul
  | "/" => some div
  | _ => none

/-- How strongly the operator binds its operands. -/
def precedence : Operator → Nat
  | add | sub => 1
  | mul | div => 2

end Operator

/-- An expression. -/
inductive Expression where
  | binary (operator : Operator) (left right : Expression)
  | identifier (name : String)
  | number (value : Binary64)
  | string (value : String)
  deriving DecidableEq, Repr

/-- How strongly the parts of an expression hold together; what has no parts holds strongest. -/
def Expression.precedence : Expression → Nat
  | .binary operator _ _ => operator.precedence
  | _ => 255

/-- A parameter of a function. -/
structure Parameter where
  name : String
  typeName : String
  deriving DecidableEq, Repr

/-- A statement of a program or of a function's body. -/
inductive Statement where
  | variableDeclaration (name typeName : String) (value : Expression)
  | functionDeclaration (name : String) (parameters : List Parameter) (returnType : String)
      (body : List Statement)
  | returnStatement (argument : Option Expression)
  deriving Repr

namespace Statement

/-- The name of a statement's form. -/
def kindName : Statement → String
  | variableDeclaration .. => "VariableDeclaration"
  | functionDeclaration .. => "FunctionDeclaration"
  | returnStatement _ => "ReturnStatement"

mutual

/-- Decides whether two statements are equal. -/
def decEq : (first second : Statement) → Decidable (first = second)
  | variableDeclaration name typeName value, variableDeclaration name' typeName' value' =>
    decidable_of_iff (name = name' ∧ typeName = typeName' ∧ value = value') (by simp)
  | functionDeclaration name parameters returnType body,
      functionDeclaration name' parameters' returnType' body' =>
    have := decEqAll body body'
    decidable_of_iff
      (name = name' ∧ parameters = parameters' ∧ returnType = returnType' ∧ body = body') (by simp)
  | returnStatement argument, returnStatement argument' =>
    decidable_of_iff (argument = argument') (by simp)
  | variableDeclaration .., functionDeclaration .. => isFalse (by simp)
  | variableDeclaration .., returnStatement _ => isFalse (by simp)
  | functionDeclaration .., variableDeclaration .. => isFalse (by simp)
  | functionDeclaration .., returnStatement _ => isFalse (by simp)
  | returnStatement _, variableDeclaration .. => isFalse (by simp)
  | returnStatement _, functionDeclaration .. => isFalse (by simp)

/-- Decides whether two bodies are equal. -/
def decEqAll : (first second : List Statement) → Decidable (first = second)
  | [], [] => isTrue rfl
  | statement :: body, statement' :: body' =>
    have := decEq statement statement'
    have := decEqAll body body'
    decidable_of_iff (statement = statement' ∧ body = body') (by simp)
  | [], _ :: _ => isFalse (by simp)
  | _ :: _, [] => isFalse (by simp)

end

instance : DecidableEq Statement := decEq

end Statement

/-- A program. -/
structure Program where
  body : List Statement
  deriving DecidableEq, Repr

end TinyScript
