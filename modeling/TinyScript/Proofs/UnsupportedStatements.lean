import Mathlib
import TinyScript.Cpp.Emit

/-!
# Programs without C++ text

A program has C++ text unless it returns outside of a function or has a function directly in the
body of another. What emission reports then is the first such statement in document order: a
function of the program comes before the statements of its body, and these come before the next
statement of the program. Statements further inside are never looked at.
-/

namespace TinyScript.Cpp

/-- A statement with the function in whose body it stands, if it stands in one. -/
structure Placed where
  owner? : Option String
  statement : Statement

/-- The report of a statement that C++ cannot hold at its place. -/
def Placed.report? (placed : Placed) : Option Report :=
  match placed.owner?, placed.statement with
  | none, .returnStatement _ =>
    some ⟨.unsupported, placed.statement.kindName ++ " outside of a function body", ⟨0, 0, 0⟩⟩
  | some owner, .functionDeclaration name .. =>
    some ⟨.unsupported, placed.statement.kindName ++ " '" ++ name ++ "' nested inside function '" ++
      owner ++ "'", ⟨0, 0, 0⟩⟩
  | _, _ => none

/-- A statement of the program itself and, if it is a function, those directly in its body. -/
def placedFrom : Statement → List Placed
  | .functionDeclaration name parameters returnType body =>
    ⟨none, .functionDeclaration name parameters returnType body⟩ :: body.map (⟨some name, ·⟩)
  | statement => [⟨none, statement⟩]

/-- The statements of a program and those directly in its functions, in document order. -/
def inDocumentOrder (program : Program) : List Placed :=
  program.body.flatMap placedFrom

/-- No return stands outside of a function, and no function directly in another. -/
structure Supported (program : Program) : Prop where
  noReturn : ∀ argument, .returnStatement argument ∉ program.body
  notNested : ∀ {name parameters returnType body},
    .functionDeclaration name parameters returnType body ∈ program.body →
    ∀ name' parameters' returnType' body',
      .functionDeclaration name' parameters' returnType' body' ∉ body

theorem supported_iff {program : Program} :
    Supported program ↔ ∀ placed ∈ inDocumentOrder program, placed.report? = none := by
  constructor
  · rintro ⟨noReturn, notNested⟩ placed member
    obtain ⟨statement, present, inside⟩ := List.mem_flatMap.mp member
    cases statement with
    | variableDeclaration name typeName value =>
      cases List.mem_singleton.mp inside
      rfl
    | functionDeclaration name parameters returnType body =>
      rcases List.mem_cons.mp inside with rfl | inner
      · rfl
      · obtain ⟨statement, directly, rfl⟩ := List.mem_map.mp inner
        cases statement with
        | variableDeclaration | returnStatement => rfl
        | functionDeclaration => exact absurd directly (notNested present _ _ _ _)
    | returnStatement argument => exact absurd present (noReturn argument)
  · intro clean
    refine ⟨?_, ?_⟩
    · intro argument present
      have refused := clean ⟨none, .returnStatement argument⟩
        (List.mem_flatMap.mpr ⟨_, present, List.mem_singleton_self _⟩)
      cases refused
    · intro name parameters returnType body present name' parameters' returnType' body' member
      have refused := clean ⟨some name, .functionDeclaration name' parameters' returnType' body'⟩
        (List.mem_flatMap.mpr ⟨_, present, List.mem_cons_of_mem _ (List.mem_map_of_mem member)⟩)
      cases refused

/-! ## The error of an emission -/

/-- The report of an attempt that fails. -/
def refusal? {α : Type} : Except EmitError α → Option Report
  | .error error => some error.report
  | .ok _ => none

theorem refusal?_eq_none_iff {α : Type} {attempt : Except EmitError α} :
    refusal? attempt = none ↔ ∃ value, attempt = .ok value := by
  cases attempt <;> simp [refusal?]

theorem refusal?_eq_some_iff {α : Type} {attempt : Except EmitError α} {report : Report} :
    refusal? attempt = some report ↔ ∃ error, attempt = .error error ∧ error.report = report := by
  cases attempt <;> simp [refusal?]

/-- Putting a result together does not fail. -/
theorem refusal?_bind_pure {α β : Type} (attempt : Except EmitError α) (result : α → β) :
    refusal? (attempt >>= fun value => pure (result value)) = refusal? attempt := by
  cases attempt <;> rfl

/-- A row of attempts fails as the first that fails. -/
theorem refusal?_mapM {α β : Type} (attempt : α → Except EmitError β) (items : List α) :
    refusal? (items.mapM attempt) = items.findSome? fun item => refusal? (attempt item) := by
  induction items with
  | nil => rfl
  | cons item items ih =>
    rw [List.mapM_cons, List.findSome?_cons, ← ih]
    cases attempt item with
    | error error => rfl
    | ok value => exact refusal?_bind_pure (items.mapM attempt) (value :: ·)

theorem refusal?_innerText (owner : String) (statement : Statement) :
    refusal? (innerText owner statement) = (Placed.mk (some owner) statement).report? := by
  cases statement with
  | variableDeclaration | returnStatement => rfl
  | functionDeclaration name =>
    simp [innerText, refusal?, EmitError.report, Report.unsupported, Placed.report?,
      Statement.kindName, String.append_assoc]

theorem refusal?_outerText (indent : String) (statement : Statement) :
    refusal? (outerText indent statement) = (placedFrom statement).findSome? Placed.report? := by
  cases statement with
  | variableDeclaration => rfl
  | functionDeclaration name parameters returnType body =>
    have inner : refusal? (functionText indent name parameters returnType body) =
        body.findSome? fun statement => (Placed.mk (some name) statement).report? := by
      rw [functionText, refusal?_bind_pure, refusal?_mapM]
      simp only [refusal?_innerText]
    rw [outerText, inner, placedFrom, List.findSome?_cons, List.findSome?_map]
    rfl
  | returnStatement => rfl

theorem findSome?_flatMap {α β γ : Type} (rows : α → List β) (find? : β → Option γ)
    (items : List α) :
    (items.flatMap rows).findSome? find? =
      items.findSome? fun item => (rows item).findSome? find? := by
  induction items with
  | nil => rfl
  | cons item items ih =>
    rw [List.flatMap_cons, List.findSome?_append, ih, List.findSome?_cons]
    cases (rows item).findSome? find? <;> rfl

/-- Emission fails as the first statement in document order that C++ cannot hold at its place. -/
theorem refusal?_emit (indent : String) (program : Program) :
    refusal? (emit indent program) = (inDocumentOrder program).findSome? Placed.report? := by
  rw [emit, refusal?_bind_pure, bodyText, refusal?_bind_pure, refusal?_mapM, inDocumentOrder,
    findSome?_flatMap]
  simp only [refusal?_outerText]

/-- Emission succeeds exactly on programs without unsupported statements, and reports the first one
    in document order on the others. -/
theorem emit_refuses_first_unsupported (indent : String) (program : Program) :
    ((∃ text, emit indent program = .ok text) ↔ Supported program) ∧
    ∀ report, (∃ error, emit indent program = .error error ∧ error.report = report) ↔
      ∃ before placed behind, inDocumentOrder program = before ++ placed :: behind ∧
        placed.report? = some report ∧ ∀ earlier ∈ before, earlier.report? = none := by
  refine ⟨?_, ?_⟩
  · rw [← refusal?_eq_none_iff, refusal?_emit, List.findSome?_eq_none_iff, supported_iff]
  · intro report
    rw [← refusal?_eq_some_iff, refusal?_emit, List.findSome?_eq_some_iff]

/-- A function in a function comes before a return behind both, and hides what it holds itself. -/
example : emit "" ⟨[.functionDeclaration "f" [] "number" [.functionDeclaration "g" [] "number"
      [.functionDeclaration "h" [] "number" []]], .returnStatement none]⟩ =
    .error (.nestedFunction "g" "f") :=
  rfl

end TinyScript.Cpp
