import TinyScript.Program.OfJson
import TinyScript.Program.ToJson

/-!
# Trees survive as JSON values

Every expression, statement and parameter is read back from the JSON value that it is written as.
-/

namespace TinyScript

/-! ## Variants -/

/-- Members that name no variant. -/
def FreeOfType (members : List (String × Json)) : Prop :=
  ∀ member ∈ members, member.1 ≠ "type"

namespace Variants

variable {κ : Type} {variants : Variants κ} {members : List (String × Json)}

theorem split_of_free (kind : Option κ) (free : FreeOfType members) :
    variants.split kind members = .ok (kind, members) := by
  induction members with
  | nil => rfl
  | cons member members ih =>
    obtain ⟨key, value⟩ := member
    have other : key ≠ "type" := free (key, value) (by simp)
    have rest := ih fun member inside => free member (List.mem_cons_of_mem _ inside)
    rw [split, if_neg other, rest]
    rfl

theorem variant_object (name record : String) (kind : κ) (named : variants.named name = .ok kind)
    (free : FreeOfType members) :
    (Json.object (("type", .string name) :: members)).variant variants record =
      .ok (kind, .members members) := by
  have split : variants.split none (("type", .string name) :: members) =
      .ok (some kind, members) := by
    rw [split, if_pos rfl, ofJson, named]
    exact split_of_free (some kind) free
  rw [Json.variant, split]
  rfl

end Variants

/-! ## Expressions -/

theorem Operator.ofJson_symbol (operator : Operator) :
    Operator.ofJson (.string operator.symbol) = .ok operator := by
  cases operator <;> rfl

namespace Expression

theorem ofBinaryFields_members {operand : Json → Except Mismatch Expression} (operator : Operator)
    {first second : Json} {left right : Expression} (readLeft : operand first = .ok left)
    (readRight : operand second = .ok right) :
    ofBinaryFields operand (.members [("operator", .string operator.symbol), ("left", first),
      ("right", second)]) = .ok (.binary operator left right) := by
  simp only [ofBinaryFields, List.foldlM_cons, List.foldlM_nil, BinaryParts.member, once,
    Option.isSome_none, Operator.ofJson_symbol, readLeft, readRight]
  rfl

/-- An expression is read from its value, given enough levels. -/
theorem ofJsonWithin_toJson (expression : Expression) : ∀ bound,
    expression.toJson.depth < bound → ofJsonWithin bound expression.toJson = .ok expression := by
  induction expression with
  | binary operator left right left_ih right_ih =>
    intro bound fits
    obtain ⟨bound, rfl⟩ := Nat.exists_eq_succ_of_ne_zero (Nat.ne_zero_of_lt fits)
    simp only [toJson, Json.depth, Json.depthOfMembers] at fits
    have left := left_ih bound (by omega)
    have right := right_ih bound (by omega)
    rw [ofJsonWithin, toJson, Variants.variant_object _ _ .binary rfl (by simp [FreeOfType])]
    exact ofBinaryFields_members operator left right
  | identifier name =>
    intro bound fits
    obtain ⟨bound, rfl⟩ := Nat.exists_eq_succ_of_ne_zero (Nat.ne_zero_of_lt fits)
    rw [ofJsonWithin, toJson, Variants.variant_object _ _ .identifier rfl (by simp [FreeOfType])]
    rfl
  | number value =>
    intro bound fits
    obtain ⟨bound, rfl⟩ := Nat.exists_eq_succ_of_ne_zero (Nat.ne_zero_of_lt fits)
    rw [ofJsonWithin, toJson, Variants.variant_object _ _ .number rfl (by simp [FreeOfType])]
    rfl
  | string value =>
    intro bound fits
    obtain ⟨bound, rfl⟩ := Nat.exists_eq_succ_of_ne_zero (Nat.ne_zero_of_lt fits)
    rw [ofJsonWithin, toJson, Variants.variant_object _ _ .string rfl (by simp [FreeOfType])]
    rfl

theorem exists_toJson (expression : Expression) :
    ∃ members, expression.toJson = .object members := by
  cases expression <;> exact ⟨_, by rw [toJson]⟩

theorem ofJson_toJson (expression : Expression) : ofJson expression.toJson = .ok expression :=
  ofJsonWithin_toJson expression _ (Nat.lt_succ_self _)

end Expression

/-! ## Statements -/

theorem Parameter.ofJson_toJson (parameter : Parameter) : ofJson parameter.toJson = .ok parameter :=
  rfl

theorem Parameter.listOfJson_toJson (parameters : List Parameter) :
    listOfJson (.array (parameters.map toJson)) = .ok parameters := by
  change (parameters.map toJson).mapM ofJson = _
  induction parameters with
  | nil => rfl
  | cons parameter parameters ih =>
    rw [List.map_cons, List.mapM_cons, ofJson_toJson, ih]
    rfl

namespace Statement

/-- The form of a statement. -/
def kind : Statement → StatementKind
  | variableDeclaration .. => .variableDeclaration
  | functionDeclaration .. => .functionDeclaration
  | returnStatement _ => .returnStatement

/-- The members of a statement's value apart from its variant. -/
def fields : Statement → List (String × Json)
  | variableDeclaration name typeName value =>
    [("identifier", .string name), ("value_type", .string typeName), ("value", value.toJson)]
  | functionDeclaration name parameters returnType body =>
    [("identifier", .string name), ("parameters", .array (parameters.map Parameter.toJson)),
      ("return_type", .string returnType), ("body", .array (allToJson body))]
  | returnStatement argument => [("argument", argument.elim .null Expression.toJson)]

/-- The statements inside a statement. -/
def inner : Statement → List Statement
  | variableDeclaration .. => []
  | functionDeclaration _ _ _ body => body
  | returnStatement _ => []

theorem toJson_eq (statement : Statement) :
    statement.toJson = .object (("type", .string statement.kindName) :: statement.fields) := by
  cases statement <;> rw [toJson] <;> rfl

theorem named_kindName (statement : Statement) :
    StatementKind.variants.named statement.kindName = .ok statement.kind := by
  cases statement <;> rfl

theorem fields_free (statement : Statement) : FreeOfType statement.fields := by
  cases statement <;> simp [fields, FreeOfType]

/-- The argument of a return is read from its value, and null as no argument. -/
theorem argumentOfJson_toJson (argument : Option Expression) :
    argumentOfJson (argument.elim .null Expression.toJson) = .ok argument := by
  cases argument with
  | none => rfl
  | some expression =>
    have read := Expression.ofJson_toJson expression
    obtain ⟨members, object⟩ := expression.exists_toJson
    rw [object] at read
    rw [Option.elim_some, object, argumentOfJson, read]
    · rfl
    · simp

/-- A statement is read from its fields by any reader that reads the statements inside. -/
theorem ofFields_fields {body : Json → Except Mismatch (List Statement)} (statement : Statement)
    (readBody : body (.array (allToJson statement.inner)) = .ok statement.inner) :
    ofFields body (.members statement.fields) statement.kind = .ok statement := by
  cases statement with
  | variableDeclaration name typeName value =>
    simp only [ofFields, kind, fields, ofVariableFields, List.foldlM_cons, List.foldlM_nil,
      VariableParts.member, once, Option.isSome_none, Json.asString, Expression.ofJson_toJson]
    rfl
  | functionDeclaration name parameters returnType inside =>
    rw [inner] at readBody
    simp only [ofFields, kind, fields, ofFunctionFields, List.foldlM_cons, List.foldlM_nil,
      FunctionParts.member, once, Option.isSome_none, Json.asString, Parameter.listOfJson_toJson,
      readBody]
    rfl
  | returnStatement argument =>
    simp only [ofFields, kind, fields, ofReturnFields, List.foldlM_cons, List.foldlM_nil, once,
      Option.isSome_none, if_pos, argumentOfJson_toJson]
    rfl

theorem depth_toJson (statement : Statement) :
    statement.toJson.depth = Json.depthOfMembers statement.fields + 1 := by
  simp [toJson_eq, Json.depth, Json.depthOfMembers]

theorem ofJsonWithin_succ (statement : Statement) {bound : Nat}
    (readInner : (allToJson statement.inner).mapM (ofJsonWithin bound) = .ok statement.inner) :
    ofJsonWithin (bound + 1) statement.toJson = .ok statement := by
  rw [ofJsonWithin, toJson_eq, Variants.variant_object _ _ _ statement.named_kindName
    statement.fields_free]
  exact ofFields_fields statement readInner

mutual

/-- A statement is read from its value, given enough levels. -/
theorem ofJsonWithin_toJson : (statement : Statement) → ∀ bound,
    statement.toJson.depth < bound → ofJsonWithin bound statement.toJson = .ok statement
  | variableDeclaration name typeName value => by
    intro bound fits
    obtain ⟨bound, rfl⟩ := Nat.exists_eq_succ_of_ne_zero (Nat.ne_zero_of_lt fits)
    exact ofJsonWithin_succ _ (by rw [inner, allToJson]; rfl)
  | returnStatement argument => by
    intro bound fits
    obtain ⟨bound, rfl⟩ := Nat.exists_eq_succ_of_ne_zero (Nat.ne_zero_of_lt fits)
    exact ofJsonWithin_succ _ (by rw [inner, allToJson]; rfl)
  | functionDeclaration name parameters returnType body => by
    intro bound fits
    obtain ⟨bound, rfl⟩ := Nat.exists_eq_succ_of_ne_zero (Nat.ne_zero_of_lt fits)
    simp only [depth_toJson, fields, Json.depthOfMembers, Json.depth] at fits
    exact ofJsonWithin_succ _ (mapM_allToJson body bound (by omega))

theorem mapM_allToJson : (body : List Statement) → ∀ bound,
    Json.depthOfItems (allToJson body) < bound →
    (allToJson body).mapM (ofJsonWithin bound) = .ok body
  | [] => by
    intro bound _
    rw [allToJson]
    rfl
  | statement :: body => by
    intro bound fits
    rw [allToJson, Json.depthOfItems] at fits
    rw [allToJson, List.mapM_cons, ofJsonWithin_toJson statement bound (by omega),
      mapM_allToJson body bound (by omega)]
    rfl

end

theorem ofJson_toJson (statement : Statement) : ofJson statement.toJson = .ok statement :=
  ofJsonWithin_toJson statement _ (Nat.lt_succ_self _)

/-- The statements of a body are read from their values. -/
theorem listOfJson_allToJson (body : List Statement) :
    listOfJson ofJson (.array (allToJson body)) = .ok body := by
  change (allToJson body).mapM ofJson = _
  induction body with
  | nil =>
    rw [allToJson]
    rfl
  | cons statement body ih =>
    rw [allToJson, List.mapM_cons, ofJson_toJson, ih]
    rfl

end Statement

end TinyScript
