import TinyScript.Program
import TinyScript.Json.Record

/-!
# Programs from JSON

A program is read from JSON text statement by statement. The program object and its list of
statements are judged while the text is read; each statement is read to its end before its fields
are judged, apart from its variant. Fields are judged in the order in which they stand, missing ones
last.
-/

namespace TinyScript

/-- The variants of expressions. -/
inductive ExpressionKind where
  | binary
  | identifier
  | number
  | string
  deriving DecidableEq, Repr

/-- The names of the variants of expressions. -/
def ExpressionKind.variants : Variants ExpressionKind :=
  [("BinaryExpression", .binary), ("Identifier", .identifier), ("NumericLiteral", .number),
    ("StringLiteral", .string)]

/-- The variants of statements. -/
inductive StatementKind where
  | variableDeclaration
  | functionDeclaration
  | returnStatement
  deriving DecidableEq, Repr

/-- The names of the variants of statements. -/
def StatementKind.variants : Variants StatementKind :=
  [("VariableDeclaration", .variableDeclaration), ("FunctionDeclaration", .functionDeclaration),
    ("ReturnStatement", .returnStatement)]

/-- A record with a single field. -/
def singleField {α : Type} (record field : String) (value : Json → Except Mismatch α) :
    Fields → Except Mismatch α
  | .members members => do
    let given ← members.foldlM (fun given (key, json) =>
      if key = field then once field given (value json) else .ok given) none
    required field given
  | .items items => (ItemReader.next value).run record 1 items

/-- The number that a JSON number denotes. -/
def JsonNumber.toBinary64? : JsonNumber → Option Binary64
  | natural value => Binary64.ofNat? value
  | negative magnitude => (Binary64.ofNat? magnitude).map (Binary64.withSign true)
  | real value => some value

/-- The value of a number. -/
def Binary64.ofJson (json : Json) : Except Mismatch Binary64 :=
  match json with
  | .number number => number.toBinary64?.elim (json.mismatch "f64") .ok
  | _ => json.mismatch "f64"

namespace Operator

/-- The operators by their symbols. -/
def variants : Variants Operator :=
  [add, sub, mul, div].map fun operator => (operator.symbol, operator)

/-- An operator: its symbol, or an object whose only key is its symbol. -/
def ofJson : Json → Except Mismatch Operator
  | .string name => variants.named name
  | .object [(name, value)] => do
    let operator ← variants.named name
    match value with
    | .null => return operator
    | .object [] => return operator
    | value => value.mismatch "unit"
  | .object _ => .error (.invalidValue .map "map with a single key")
  | json => json.mismatch "string or map"

end Operator

/-! ## Expressions -/

/-- The fields of a binary expression read so far. -/
structure BinaryParts where
  operator : Option Operator := none
  left : Option Expression := none
  right : Option Expression := none

/-- Reads a member of a binary expression. -/
def BinaryParts.member (operand : Json → Except Mismatch Expression) (parts : BinaryParts) :
    String × Json → Except Mismatch BinaryParts
  | ("operator", json) => do
    return { parts with operator := ← once "operator" parts.operator (Operator.ofJson json) }
  | ("left", json) => do return { parts with left := ← once "left" parts.left (operand json) }
  | ("right", json) => do return { parts with right := ← once "right" parts.right (operand json) }
  | _ => .ok parts

namespace Expression

/-- A binary expression. -/
def ofBinaryFields (operand : Json → Except Mismatch Expression) :
    Fields → Except Mismatch Expression
  | .members members => do
    let parts ← members.foldlM (BinaryParts.member operand) {}
    return .binary (← required "operator" parts.operator) (← required "left" parts.left)
      (← required "right" parts.right)
  | .items items =>
    ItemReader.run (do
      return .binary (← .next Operator.ofJson) (← .next operand) (← .next operand))
      "struct variant Expression::BinaryExpression" 3 items

/-- An expression of a known variant, given a reader for its operands. -/
def ofFields (operand : Json → Except Mismatch Expression) (fields : Fields) :
    ExpressionKind → Except Mismatch Expression
  | .binary => ofBinaryFields operand fields
  | .identifier =>
    identifier <$> singleField "struct variant Expression::Identifier" "name" Json.asString fields
  | .number =>
    number <$>
      singleField "struct variant Expression::NumericLiteral" "value" Binary64.ofJson fields
  | .string =>
    string <$> singleField "struct variant Expression::StringLiteral" "value" Json.asString fields

/-- What an expression is, in words. -/
def recordText : String := "internally tagged enum Expression"

/-- An expression from a value nested less deeply than the bound. -/
def ofJsonWithin : Nat → Json → Except Mismatch Expression
  | 0, json => json.mismatch recordText
  | bound + 1, json => do
    let (kind, fields) ← json.variant ExpressionKind.variants recordText
    ofFields (ofJsonWithin bound) fields kind

/-- An expression from JSON. -/
def ofJson (json : Json) : Except Mismatch Expression :=
  ofJsonWithin (json.depth + 1) json

/-- An expression from an outline that may hold arrays and objects down to a number of levels. -/
def ofOutline (levels : Nat) (outline : Outline) : Except JsonError Expression := do
  let (kind, fields) ← outline.variant ExpressionKind.variants recordText (levels - 1)
  (ofFields ofJson fields kind).mapError .mismatch

end Expression

/-! ## Statements -/

/-- The fields of a parameter read so far. -/
structure ParameterParts where
  name : Option String := none
  typeName : Option String := none

/-- Reads a member of a parameter. -/
def ParameterParts.member (parts : ParameterParts) :
    String × Json → Except Mismatch ParameterParts
  | ("name", json) => do return { parts with name := ← once "name" parts.name json.asString }
  | ("param_type", json) => do
    return { parts with typeName := ← once "param_type" parts.typeName json.asString }
  | _ => .ok parts

/-- A parameter from JSON. -/
def Parameter.ofJson (json : Json) : Except Mismatch Parameter := do
  match ← json.fields "struct Parameter" with
  | .members members =>
    let parts ← members.foldlM ParameterParts.member {}
    return ⟨← required "name" parts.name, ← required "param_type" parts.typeName⟩
  | .items items =>
    ItemReader.run (do return ⟨← .next Json.asString, ← .next Json.asString⟩)
      "struct Parameter" 2 items

/-- The parameters of a function from JSON. -/
def Parameter.listOfJson (json : Json) : Except Mismatch (List Parameter) := do
  (← json.asArray).mapM Parameter.ofJson

/-- The fields of a variable's declaration read so far. -/
structure VariableParts where
  name : Option String := none
  typeName : Option String := none
  value : Option Expression := none

/-- Reads a member of a variable's declaration. -/
def VariableParts.member (parts : VariableParts) : String × Json → Except Mismatch VariableParts
  | ("identifier", json) => do
    return { parts with name := ← once "identifier" parts.name json.asString }
  | ("value_type", json) => do
    return { parts with typeName := ← once "value_type" parts.typeName json.asString }
  | ("value", json) => do
    return { parts with value := ← once "value" parts.value (Expression.ofJson json) }
  | _ => .ok parts

/-- The fields of a function's declaration read so far. -/
structure FunctionParts where
  name : Option String := none
  parameters : Option (List Parameter) := none
  returnType : Option String := none
  body : Option (List Statement) := none

/-- Reads a member of a function's declaration. -/
def FunctionParts.member (body : Json → Except Mismatch (List Statement)) (parts : FunctionParts) :
    String × Json → Except Mismatch FunctionParts
  | ("identifier", json) => do
    return { parts with name := ← once "identifier" parts.name json.asString }
  | ("parameters", json) => do
    let parameters ← once "parameters" parts.parameters (Parameter.listOfJson json)
    return { parts with parameters }
  | ("return_type", json) => do
    return { parts with returnType := ← once "return_type" parts.returnType json.asString }
  | ("body", json) => do return { parts with body := ← once "body" parts.body (body json) }
  | _ => .ok parts

namespace Statement

/-- A variable's declaration. -/
def ofVariableFields : Fields → Except Mismatch Statement
  | .members members => do
    let parts ← members.foldlM VariableParts.member {}
    return .variableDeclaration (← required "identifier" parts.name)
      (← required "value_type" parts.typeName) (← required "value" parts.value)
  | .items items =>
    ItemReader.run (do
      return .variableDeclaration (← .next Json.asString) (← .next Json.asString)
        (← .next Expression.ofJson))
      "struct VariableDeclaration" 3 items

/-- A function's declaration, given a reader for its body. -/
def ofFunctionFields (body : Json → Except Mismatch (List Statement)) :
    Fields → Except Mismatch Statement
  | .members members => do
    let parts ← members.foldlM (FunctionParts.member body) {}
    return .functionDeclaration (← required "identifier" parts.name)
      (← required "parameters" parts.parameters) (← required "return_type" parts.returnType)
      (← required "body" parts.body)
  | .items items =>
    ItemReader.run (do
      return .functionDeclaration (← .next Json.asString) (← .next Parameter.listOfJson)
        (← .next Json.asString) (← .next body))
      "struct FunctionDeclaration" 4 items

/-- The argument of a return; null stands for none. -/
def argumentOfJson : Json → Except Mismatch (Option Expression)
  | .null => .ok none
  | json => some <$> Expression.ofJson json

/-- A return. Its argument may be left out of an object. -/
def ofReturnFields : Fields → Except Mismatch Statement
  | .members members => do
    let given ← members.foldlM (fun given (key, json) =>
      if key = "argument" then once "argument" given (argumentOfJson json) else .ok given) none
    return .returnStatement (given.getD none)
  | .items items =>
    ItemReader.run (do return .returnStatement (← .next argumentOfJson))
      "struct ReturnStatement" 1 items

/-- A statement of a known variant, given a reader for the body of a function. -/
def ofFields (body : Json → Except Mismatch (List Statement)) (fields : Fields) :
    StatementKind → Except Mismatch Statement
  | .variableDeclaration => ofVariableFields fields
  | .functionDeclaration => ofFunctionFields body fields
  | .returnStatement => ofReturnFields fields

/-- What a statement is, in words. -/
def recordText : String := "internally tagged enum Statement"

/-- Statements from JSON, given a reader for each. -/
def listOfJson (statement : Json → Except Mismatch Statement) (json : Json) :
    Except Mismatch (List Statement) := do
  (← json.asArray).mapM statement

/-- A statement from a value nested less deeply than the bound. -/
def ofJsonWithin : Nat → Json → Except Mismatch Statement
  | 0, json => json.mismatch recordText
  | bound + 1, json => do
    let (kind, fields) ← json.variant StatementKind.variants recordText
    ofFields (listOfJson (ofJsonWithin bound)) fields kind

/-- A statement from JSON. -/
def ofJson (json : Json) : Except Mismatch Statement :=
  ofJsonWithin (json.depth + 1) json

/-- A statement from an outline that may hold arrays and objects down to a number of levels. -/
def ofOutline (levels : Nat) (outline : Outline) : Except JsonError Statement := do
  let (kind, fields) ← outline.variant StatementKind.variants recordText (levels - 1)
  (ofFields (listOfJson ofJson) fields kind).mapError .mismatch

/-- The statements of a program from an outline that may hold arrays and objects down to a number of
    levels. -/
def listOfOutline (levels : Nat) : Outline → Except JsonError (List Statement)
  | .array items ending => do
    let statements ← items.mapM (ofOutline (levels - 1))
    (Outline.checkEnding ending).mapError .fault
    return statements
  | outline => .error (outline.mismatch "a sequence")

end Statement

/-! ## Programs -/

namespace Program

/-- What a program is, in words. -/
def recordText : String := "struct Program"

/-- Reads a member of a program. Only the members that are no field are skimmed. -/
def bodyMember (levels : Nat) (body : Option (List Statement)) :
    Except JsonFault String × Outline → Except JsonError (Option (List Statement))
  | (key, value) => do
    let key ← key.mapError .fault
    if key = "body" then
      if body.isSome then .error (.mismatch (.duplicateField "body"))
      else some <$> Statement.listOfOutline levels value
    else value.skim.elim (.ok body) (.error ∘ .fault)

/-- A program from an outline that may hold arrays and objects down to a number of levels. -/
def ofOutline (levels : Nat) : Outline → Except JsonError Program
  | .object members ending => do
    let body ← members.foldlM (bodyMember (levels - 1)) none
    (Outline.checkEnding ending).mapError .fault
    return ⟨← (required "body" body).mapError .mismatch⟩
  | .array [] ending => do
    (Outline.checkEnding ending).mapError .fault
    .error (.mismatch (.invalidLength 0 (recordText ++ " with " ++ elementsText 1)))
  | .array (item :: items) ending => do
    let body ← Statement.listOfOutline (levels - 1) item
    if items.isEmpty then
      (Outline.checkEnding ending).mapError .fault
      return ⟨body⟩
    else .error (.fault .malformed)
  | outline => .error (outline.mismatch recordText)

end Program

/-- What a text holds, read as the given reader does; nothing but white space may follow. -/
def ofJsonText {α : Type} (read : Nat → Outline → Except JsonError α) (text : String) :
    Except JsonError α := do
  let (outline, trailing) := Outline.ofText text
  let value ← read Outline.nestingLimit outline
  if trailing then .error (.fault .malformed) else return value

/-- The program that a JSON text holds. -/
def Program.ofJsonText (text : String) : Except JsonError Program :=
  TinyScript.ofJsonText Program.ofOutline text

/-- The expression that a JSON text holds. -/
def Expression.ofJsonText (text : String) : Except JsonError Expression :=
  TinyScript.ofJsonText Expression.ofOutline text

end TinyScript
