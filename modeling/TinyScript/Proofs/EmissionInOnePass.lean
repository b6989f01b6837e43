import Mathlib.Tactic.Convert
import TinyScript.Cpp.Emit

/-!
# Emission in one pass

The C++ text of a program can be written in one pass that carries the headers along: each type asks
for its header at the moment its text is written, and the include block is made of the headers that
are there in the end. The headers are those of the types that a walk through the program lists, so
that both ways give the same text and fail with the same error.
-/

namespace TinyScript.Cpp

/-- An emission asks for headers on its way, and may fail. -/
abbrev Emission := StateT Includes (Except EmitError)

/-- Where a statement is written. -/
inductive Scope where
  | program
  | function (name : String)
  deriving DecidableEq, Repr

namespace Emission

/-! ## The emission of a program -/

/-- The C++ type for a type of the source language. Its header is asked for. -/
def typeText : String → Emission String
  | "string" => do
    modify (Includes.require · "string")
    return "std::string"
  | _ => return "int"

/-- The C++ text of a parameter. -/
def parameterText (parameter : Parameter) : Emission String := do
  let type ← typeText parameter.typeName
  return type ++ " " ++ parameter.name

mutual

/-- The C++ text of a statement at its place. -/
def statementText (indent : String) : Statement → Scope → Emission String
  | .variableDeclaration name sourceType value, _ => do
    let type ← typeText sourceType
    return type ++ " " ++ name ++ " = " ++ expression value ++ ";"
  | .functionDeclaration name parameters returnType body, .program => do
    let type ← typeText returnType
    let parameters ← parameters.mapM parameterText
    let head := type ++ " " ++ name ++ "(" ++ String.intercalate ", " parameters ++ ") \x7b\n"
    let lines ← bodyLines indent name head body
    return lines ++ "\x7d"
  | .functionDeclaration name .., .function outer => throw (.nestedFunction name outer)
  | .returnStatement argument, .function _ => return returnText argument
  | .returnStatement _, .program => throw .topLevelReturn

/-- A text with the lines of a function's body appended to it. -/
def bodyLines (indent name written : String) : List Statement → Emission String
  | [] => return written
  | statement :: rest => do
    let line ← statementText indent statement (.function name)
    bodyLines indent name (written ++ indent ++ line ++ "\n") rest

end

/-- The C++ text of a program. The headers start anew with each program. -/
def emit (indent : String) (program : Program) : Except EmitError String := do
  let (texts, includes) ← (program.body.mapM (statementText indent · .program)).run {}
  let text := includes.render ++ String.intercalate "\n\n" texts
  return if texts.isEmpty then text else text ++ "\n"

/-! ## Emissions put together -/

variable {α β : Type}

/-- An emission with the given outcome. If it succeeds, it has asked for the headers of the given
    types, in their order. -/
def Yields (emission : Emission α) (types : List String) (outcome : Except EmitError α) : Prop :=
  ∀ includes, emission.run includes =
    outcome.map fun value => (value, types.foldl Includes.requireType includes)

theorem Yields.pure (value : α) : Yields (pure value) [] (.ok value) :=
  fun _ => rfl

theorem Yields.throw (error : EmitError) (types : List String) :
    Yields (throw error : Emission α) types (.error error) :=
  fun _ => rfl

/-- One emission after another asks for the headers of both, in this order. -/
theorem Yields.bind {emission : Emission α} {types laterTypes : List String}
    {outcome : Except EmitError α} {later : α → Emission β} {laterOutcome : α → Except EmitError β}
    (h : Yields emission types outcome)
    (hLater : ∀ value, Yields (later value) laterTypes (laterOutcome value)) :
    Yields (emission >>= later) (types ++ laterTypes) (outcome >>= laterOutcome) := by
  intro includes
  rw [StateT.run_bind, h includes]
  cases outcome with
  | error error => rfl
  | ok value =>
    rw [List.foldl_append]
    exact hLater value _

/-- What is made of the result of an emission asks for no header. -/
theorem Yields.bind_pure {emission : Emission α} {types : List String}
    {outcome : Except EmitError α} (h : Yields emission types outcome) (f : α → β) :
    Yields (do return f (← emission)) types (outcome.map f) := by
  intro includes
  rw [StateT.run_bind, h includes]
  cases outcome <;> rfl

/-- Emissions for the items of a list, one after the other. -/
theorem Yields.mapM {emission : α → Emission β} {types : α → List String}
    {outcome : α → Except EmitError β}
    (h : ∀ item, Yields (emission item) (types item) (outcome item)) (items : List α) :
    Yields (items.mapM emission) (items.flatMap types) (items.mapM outcome) := by
  induction items with
  | nil => exact .pure []
  | cons item items ih =>
    rw [List.mapM_cons, List.mapM_cons, List.flatMap_cons]
    exact (h item).bind fun value => ih.bind_pure (value :: ·)

/-! ## What the forms of statements yield -/

theorem yields_typeText (sourceType : String) :
    Yields (typeText sourceType) [sourceType] (.ok (typeName sourceType)) := by
  intro includes
  unfold typeText
  split
  · rfl
  · simp only [typeName, Includes.requireType, typeHeader?, List.foldl_cons, List.foldl_nil]
    rfl

theorem yields_parameterText (parameter : Parameter) :
    Yields (parameterText parameter) [parameter.typeName] (.ok (Cpp.parameterText parameter)) :=
  (yields_typeText parameter.typeName).bind_pure (· ++ " " ++ parameter.name)

theorem yields_parameters (parameters : List Parameter) :
    Yields (parameters.mapM parameterText) (parameters.map Parameter.typeName)
      (.ok (parameters.map Cpp.parameterText)) := by
  have h := Yields.mapM yields_parameterText parameters
  have texts : (parameters.mapM fun parameter =>
      (.ok (Cpp.parameterText parameter) : Except EmitError String)) =
        .ok (parameters.map Cpp.parameterText) := List.mapM_pure
  rwa [texts, ← List.map_eq_flatMap] at h

theorem yields_variable (indent name sourceType : String) (value : Expression) (scope : Scope) :
    Yields (statementText indent (.variableDeclaration name sourceType value) scope)
      (typesUsed (.variableDeclaration name sourceType value))
      (.ok (variableText name sourceType value)) := by
  rw [statementText, typesUsed]
  exact (yields_typeText sourceType).bind_pure
    (· ++ " " ++ name ++ " = " ++ expression value ++ ";")

/-- Statements in a function. A function there fails before anything in it asks for a header. -/
theorem yields_inner (indent outer : String) (statement : Statement) :
    Yields (statementText indent statement (.function outer)) (typesUsed statement)
      (innerText outer statement) := by
  cases statement with
  | variableDeclaration name sourceType value =>
    exact yields_variable indent name sourceType value (.function outer)
  | functionDeclaration name parameters returnType body =>
    -- An error leaves no headers behind, so the types in the function do not count.
    rw [statementText]
    exact .throw (.nestedFunction name outer) _
  | returnStatement argument =>
    rw [statementText, typesUsed]
    exact .pure (returnText argument)

/-- A text with indented lines appended to it. -/
def withLines (indent written : String) (lines : List String) : String :=
  written ++ String.join (lines.map fun line => indent ++ line ++ "\n")

theorem withLines_nil (indent written : String) : withLines indent written [] = written := by
  rw [withLines, List.map_nil, String.join_nil, String.append_empty]

theorem withLines_cons (indent written line : String) (lines : List String) :
    withLines indent written (line :: lines) =
      withLines indent (written ++ indent ++ line ++ "\n") lines := by
  rw [withLines, withLines, List.map_cons, String.join_cons]
  simp only [String.append_assoc]

/-- The lines of a body are appended one after the other. -/
theorem yields_bodyLines (indent name written : String) (body : List Statement) :
    Yields (bodyLines indent name written body) (typesUsedInAll body)
      ((body.mapM (innerText name)).map (withLines indent written)) := by
  induction body generalizing written with
  | nil =>
    rw [bodyLines, typesUsedInAll]
    change Yields _ [] (.ok (withLines indent written []))
    rw [withLines_nil]
    exact .pure written
  | cons statement rest ih =>
    rw [bodyLines, typesUsedInAll, List.mapM_cons]
    have h := (yields_inner indent name statement).bind fun line =>
      ih (written ++ indent ++ line ++ "\n")
    convert h using 1
    -- The first error is the same; without one, the first line goes over to the written text.
    cases innerText name statement with
    | error error => rfl
    | ok line =>
      cases rest.mapM (innerText name) with
      | error error => rfl
      | ok lines => exact congrArg Except.ok (withLines_cons indent written line lines)

/-- A function asks for the header of its own type, then for those of its parameters, and then for
    those of its body. -/
theorem yields_function (indent name : String) (parameters : List Parameter) (returnType : String)
    (body : List Statement) :
    Yields (statementText indent (.functionDeclaration name parameters returnType body) .program)
      (typesUsed (.functionDeclaration name parameters returnType body))
      (functionText indent name parameters returnType body) := by
  rw [statementText, typesUsed, functionText]
  have h := (yields_typeText returnType).bind fun type =>
    (yields_parameters parameters).bind fun texts =>
      (yields_bodyLines indent name
        (type ++ " " ++ name ++ "(" ++ String.intercalate ", " texts ++ ") \x7b\n") body).bind_pure
        (· ++ "\x7d")
  convert h using 1
  · rfl
  · cases body.mapM (innerText name) <;> rfl

theorem yields_outer (indent : String) (statement : Statement) :
    Yields (statementText indent statement .program) (typesUsed statement)
      (outerText indent statement) := by
  cases statement with
  | variableDeclaration name sourceType value =>
    exact yields_variable indent name sourceType value .program
  | functionDeclaration name parameters returnType body =>
    exact yields_function indent name parameters returnType body
  | returnStatement argument =>
    rw [statementText]
    exact .throw .topLevelReturn _

/-! ## The whole program -/

theorem typesUsedInAll_eq_flatMap (body : List Statement) :
    typesUsedInAll body = body.flatMap typesUsed := by
  induction body with
  | nil => rw [typesUsedInAll, List.flatMap_nil]
  | cons statement body ih => rw [typesUsedInAll, ih, List.flatMap_cons]

/-- The headers that are carried along are those of the types in the program: emission in one pass
    gives the same text, or the same error. -/
theorem emit_eq (indent : String) (program : Program) :
    emit indent program = Cpp.emit indent program := by
  have h := Yields.mapM (yields_outer indent) program.body {}
  rw [← typesUsedInAll_eq_flatMap] at h
  rw [emit, h, Cpp.emit, includesOf, bodyText]
  cases program.body.mapM (outerText indent) with
  | error error => rfl
  | ok texts =>
    cases texts with
    | nil => rfl
    | cons text texts => exact congrArg Except.ok (String.append_assoc ..)

end Emission

end TinyScript.Cpp
