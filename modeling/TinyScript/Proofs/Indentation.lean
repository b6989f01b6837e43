import Mathlib
import TinyScript.Proofs.EmitConcatenation

/-!
# Indentation

The indentation of C++ text stands in front of the lines strictly inside of functions and nowhere
else. Which lines these are can be seen in the text without any indentation: a function begins
with a line that ends in an opening brace and ends with a line that is a closing brace and nothing
more, and every line between them is one statement of its body. Statements stay on their lines
whatever their string literals hold, because a line break in a literal is escaped.
-/

namespace TinyScript.Cpp

/-! ## Lines inside of functions -/

/-- A line of C++ text and whether it stands strictly inside of a function. -/
structure Row where
  inside : Bool
  text : String
  deriving DecidableEq, Repr

/-- The line with an indentation in front of it if it stands inside of a function. -/
def Row.indented (indent : String) (row : Row) : String :=
  if row.inside then indent ++ row.text else row.text

/-- The lines of a text, the last of which is what stands behind the last line break. -/
def linesOf (text : String) : List String :=
  (text.toList.splitOn '\n').map String.ofList

/-- Tells the lines inside of functions from the others, from a line on that stands inside of a
    function or outside of all. -/
def rowsFrom : Bool → List String → List Row
  | _, [] => []
  | false, line :: rest => ⟨false, line⟩ :: rowsFrom (line.toList.getLast? == some '\x7b') rest
  | true, line :: rest =>
    if line = "\x7d" then ⟨false, line⟩ :: rowsFrom false rest
    else ⟨true, line⟩ :: rowsFrom true rest

/-- The lines of a C++ text, those inside of functions told from the others. -/
def rowsOf (text : String) : List Row :=
  rowsFrom false (linesOf text)

/-- The lines of a C++ text that stand strictly inside of functions. -/
def linesInside (text : String) : List String :=
  ((rowsOf text).filter Row.inside).map Row.text

/-- A C++ text with an indentation in front of its lines inside of functions. -/
def indented (indent text : String) : String :=
  String.intercalate "\n" ((rowsOf text).map (Row.indented indent))

/-- The texts of the statements in the body of a statement that is a function. -/
def bodyTexts : Statement → List (Except EmitError String)
  | .functionDeclaration name _ _ body => body.map (innerText name)
  | _ => []

/-! ## Rows of programs -/

/-- The first line of a function. -/
def headerText (name : String) (parameters : List Parameter) (returnType : String) : String :=
  typeName returnType ++ " " ++ name ++ "(" ++
    String.intercalate ", " (parameters.map parameterText) ++ ") \x7b"

/-- The lines of a statement of the program itself. -/
def outerRows : Statement → Except EmitError (List Row)
  | .variableDeclaration name typeName value => .ok [⟨false, variableText name typeName value⟩]
  | .functionDeclaration name parameters returnType body => do
    let lines ← body.mapM (innerText name)
    return ⟨false, headerText name parameters returnType⟩ :: lines.map (⟨true, ·⟩) ++
      [⟨false, "\x7d"⟩]
  | .returnStatement _ => .error .topLevelReturn

/-- The lines of the include block of a text with strings or without. -/
def includeRows (strings : Prop) [Decidable strings] : List Row :=
  if strings then [⟨false, "#include <string>"⟩, ⟨false, ""⟩] else []

/-- The lines of a program, with an empty line between two statements. -/
def programRows (program : Program) : Except EmitError (List Row) := do
  let rows ← program.body.mapM outerRows
  return includeRows (program.Mentions "string") ++ [⟨false, ""⟩].intercalate rows

/-- Rows as text with a line break behind each. -/
def spread (indent : String) (rows : List Row) : String :=
  String.join (rows.map fun row => row.indented indent ++ "\n")

@[simp]
theorem spread_nil (indent : String) : spread indent [] = "" :=
  rfl

@[simp]
theorem spread_append (indent : String) (rows rows' : List Row) :
    spread indent (rows ++ rows') = spread indent rows ++ spread indent rows' := by
  simp [spread, String.join_append]

theorem spread_cons (indent : String) (row : Row) (rows : List Row) :
    spread indent (row :: rows) = row.indented indent ++ "\n" ++ spread indent rows := by
  simp [spread]

/-- Two breaks between texts and one behind the last are a break behind each and one between
    them. -/
theorem intercalate_terminated (texts : List String) :
    (if texts.isEmpty then "" else String.intercalate "\n\n" texts ++ "\n") =
      String.intercalate "\n" (texts.map (· ++ "\n")) := by
  induction texts with
  | nil => rfl
  | cons text texts ih =>
    cases texts with
    | nil => simp
    | cons next texts =>
      simp only [List.isEmpty_cons, Bool.false_eq_true, if_false, List.map_cons] at ih
      simp only [List.isEmpty_cons, Bool.false_eq_true, if_false, List.map_cons,
        String.intercalate_cons_cons, ← ih, String.append_assoc]
      rfl

theorem spread_intercalate (indent : String) (rows : List (List Row)) :
    spread indent ([⟨false, ""⟩].intercalate rows) =
      String.intercalate "\n" (rows.map (spread indent)) := by
  induction rows with
  | nil => simp
  | cons row rows ih =>
    cases rows with
    | nil => simp
    | cons next rows =>
      have blank : spread indent [⟨false, ""⟩] = "\n" := by simp [spread, Row.indented]
      rw [List.intercalate_cons_cons, spread_append, spread_append, ih, blank]
      simp only [List.map_cons, String.intercalate_cons_cons]

theorem outerText_eq_spread (indent : String) (statement : Statement) :
    (outerText indent statement).map (· ++ "\n") = (outerRows statement).map (spread indent) := by
  cases statement with
  | variableDeclaration name typeName value =>
    simp [outerText, outerRows, Except.map, spread, Row.indented]
  | functionDeclaration name parameters returnType body =>
    rw [outerText, outerRows, functionText]
    cases body.mapM (innerText name) with
    | error error => rfl
    | ok lines =>
      have inner : spread indent (lines.map (⟨true, ·⟩)) =
          String.join (lines.map fun line => indent ++ line ++ "\n") := by
        simp [spread, Row.indented, Function.comp_def]
      simp [bind, Except.bind, pure, Except.pure, Except.map, headerText, spread_cons, inner,
        Row.indented, String.append_assoc]
  | returnStatement argument => rfl

theorem mapM_map_result {α β γ ε : Type} (f : α → Except ε β) (g : β → γ) (items : List α) :
    (items.mapM fun item => (f item).map g) = (items.mapM f).map (List.map g) := by
  induction items with
  | nil => rfl
  | cons item items ih =>
    rw [List.mapM_cons, List.mapM_cons, ih]
    cases f item with
    | error error => rfl
    | ok value => cases items.mapM f <;> rfl

theorem bodyText_eq_spread (indent : String) (program : Program) :
    bodyText indent program =
      (program.body.mapM outerRows).map fun rows =>
        spread indent ([⟨false, ""⟩].intercalate rows) := by
  calc bodyText indent program
    _ = (program.body.mapM (outerText indent)).map fun texts =>
          String.intercalate "\n" (texts.map (· ++ "\n")) := by
      rw [bodyText]
      cases program.body.mapM (outerText indent) with
      | error error => rfl
      | ok texts => exact congrArg Except.ok (intercalate_terminated texts)
    _ = (program.body.mapM fun statement => (outerText indent statement).map (· ++ "\n")).map
          (String.intercalate "\n") := by
      rw [mapM_map_result]
      cases program.body.mapM (outerText indent) <;> rfl
    _ = (program.body.mapM fun statement => (outerRows statement).map (spread indent)).map
          (String.intercalate "\n") := by
      simp only [outerText_eq_spread]
    _ = _ := by
      rw [mapM_map_result]
      cases program.body.mapM outerRows with
      | error error => rfl
      | ok rows => exact congrArg Except.ok (spread_intercalate indent rows).symm

/-- The text of a program is its rows, whatever the indentation. -/
theorem emit_eq_spread (indent : String) (program : Program) :
    emit indent program = (programRows program).map (spread indent) := by
  have block : includeBlock (program.Mentions "string") =
      spread indent (includeRows (program.Mentions "string")) := by
    unfold includeBlock includeRows
    split
    · simp [spread, Row.indented]
    · rfl
  rw [emit, render_includesOf, bodyText_eq_spread, programRows, block]
  cases program.body.mapM outerRows with
  | error error => rfl
  | ok rows => simp [bind, Except.bind, pure, Except.pure, Except.map]

/-! ## Reading the rows of a text -/

/-- A text without line breaks. -/
def Unbroken (text : String) : Prop :=
  '\n' ∉ text.toList

instance (text : String) : Decidable (Unbroken text) :=
  inferInstanceAs (Decidable ('\n' ∉ text.toList))

@[simp]
theorem unbroken_append {text text' : String} :
    Unbroken (text ++ text') ↔ Unbroken text ∧ Unbroken text' := by
  simp [Unbroken]

theorem unbroken_intercalate {separator : String} {texts : List String}
    (unbroken : Unbroken separator) (unbroken' : ∀ text ∈ texts, Unbroken text) :
    Unbroken (String.intercalate separator texts) := by
  induction texts with
  | nil => simp [Unbroken]
  | cons text texts ih =>
    obtain ⟨first, others⟩ := List.forall_mem_cons.mp unbroken'
    cases texts with
    | nil => simpa using first
    | cons next texts =>
      rw [String.intercalate_cons_cons]
      simp only [unbroken_append]
      exact ⟨⟨first, unbroken⟩, ih others⟩

/-- A break behind each line is a break between lines the last of which is empty. -/
theorem join_eq_intercalate (lines : List String) :
    String.join (lines.map (· ++ "\n")) = String.intercalate "\n" (lines ++ [""]) := by
  induction lines with
  | nil => rfl
  | cons line lines ih =>
    rw [List.cons_append, String.intercalate_cons_of_ne_nil (by simp), ← ih, List.map_cons,
      String.join_cons]

theorem linesOf_intercalate {lines : List String} (unbroken : ∀ line ∈ lines, Unbroken line)
    (some : lines ≠ []) : linesOf (String.intercalate "\n" lines) = lines := by
  have free : ∀ line ∈ lines.map String.toList, '\n' ∉ line := by
    intro line member
    obtain ⟨text, among, rfl⟩ := List.mem_map.mp member
    exact unbroken text among
  have split : (['\n'].intercalate (lines.map String.toList)).splitOn '\n' =
      lines.map String.toList :=
    List.splitOn_intercalate '\n' free (by simpa using some)
  rw [linesOf, String.toList_intercalate, String.toList_ofList, split]
  simp [Function.comp_def]

/-- Rows that can be told from their texts: the texts are single lines, and from outside of
    functions they lead back to the outside of functions. -/
structure Laid (rows : List Row) : Prop where
  unbroken : ∀ row ∈ rows, Unbroken row.text
  told : ∀ more, rowsFrom false (rows.map Row.text ++ more) = rows ++ rowsFrom false more

theorem Laid.nil : Laid [] :=
  ⟨by simp, fun _ => rfl⟩

theorem Laid.append {rows rows' : List Row} (laid : Laid rows) (laid' : Laid rows') :
    Laid (rows ++ rows') where
  unbroken row member := (List.mem_append.mp member).elim (laid.unbroken row) (laid'.unbroken row)
  told more := by
    rw [List.map_append, List.append_assoc, laid.told, laid'.told, List.append_assoc]

/-- A line outside of functions that begins no function. -/
theorem Laid.line {text : String} (unbroken : Unbroken text)
    (plain : text.toList.getLast? ≠ some '\x7b') : Laid [⟨false, text⟩] where
  unbroken := by simpa using unbroken
  told more := by simp [rowsFrom, beq_eq_false_iff_ne.mpr plain]

theorem Laid.blank : Laid [⟨false, ""⟩] :=
  .line (by simp [Unbroken]) (by simp)

/-- From inside of a function, lines stand inside until one is a closing brace. -/
theorem rowsFrom_inside {lines : List String} (unclosed : "\x7d" ∉ lines) (more : List String) :
    rowsFrom true (lines ++ "\x7d" :: more) =
      lines.map (⟨true, ·⟩) ++ ⟨false, "\x7d"⟩ :: rowsFrom false more := by
  induction lines with
  | nil => simp [rowsFrom]
  | cons line lines ih =>
    obtain ⟨this, others⟩ := not_or.mp (mt List.mem_cons.mpr unclosed)
    rw [List.cons_append, rowsFrom, if_neg (Ne.symm this), ih others]
    rfl

theorem Laid.function {header : String} {lines : List String} (unbroken : Unbroken header)
    (opens : header.toList.getLast? = some '\x7b') (unbroken' : ∀ line ∈ lines, Unbroken line)
    (unclosed : "\x7d" ∉ lines) :
    Laid (⟨false, header⟩ :: lines.map (⟨true, ·⟩) ++ [⟨false, "\x7d"⟩]) where
  unbroken row member := by
    simp only [List.cons_append, List.mem_cons, List.mem_append, List.mem_map, List.not_mem_nil,
      or_false] at member
    rcases member with rfl | ⟨line, among, rfl⟩ | rfl
    · exact unbroken
    · exact unbroken' line among
    · simp [Unbroken]
  told more := by
    have texts : (⟨false, header⟩ :: lines.map (⟨true, ·⟩) ++ [⟨false, "\x7d"⟩] : List Row).map
        Row.text ++ more = header :: (lines ++ "\x7d" :: more) := by
      simp [Function.comp_def]
    rw [texts, rowsFrom, opens, beq_self_eq_true, rowsFrom_inside unclosed]
    simp

theorem Laid.intercalate {rows : List (List Row)} (laid : ∀ row ∈ rows, Laid row) :
    Laid ([⟨false, ""⟩].intercalate rows) := by
  induction rows with
  | nil => exact .nil
  | cons row rows ih =>
    obtain ⟨first, others⟩ := List.forall_mem_cons.mp laid
    cases rows with
    | nil => simpa using first
    | cons next rows =>
      rw [List.intercalate_cons_cons]
      exact (first.append .blank).append (ih others)

theorem spread_eq_intercalate (indent : String) (rows : List Row) :
    spread indent rows = String.intercalate "\n" (rows.map (Row.indented indent) ++ [""]) := by
  rw [← join_eq_intercalate, spread, List.map_map]
  rfl

theorem rowsOf_spread {rows : List Row} (laid : Laid rows) :
    rowsOf (spread "" rows) = rows ++ [⟨false, ""⟩] := by
  have texts : rows.map (Row.indented "") = rows.map Row.text :=
    List.map_congr_left fun row _ => by simp [Row.indented]
  have unbroken : ∀ line ∈ rows.map Row.text ++ [""], Unbroken line := by
    intro line member
    rcases List.mem_append.mp member with inside | last
    · obtain ⟨row, among, rfl⟩ := List.mem_map.mp inside
      exact laid.unbroken row among
    · cases List.mem_singleton.mp last
      simp [Unbroken]
  rw [rowsOf, spread_eq_intercalate, texts, linesOf_intercalate unbroken (by simp), laid.told]
  simp [rowsFrom]

/-- Indenting rows that have no indentation is the same as laying them out with it. -/
theorem indented_spread {rows : List Row} (laid : Laid rows) (indent : String) :
    indented indent (spread "" rows) = spread indent rows := by
  rw [indented, rowsOf_spread laid, spread_eq_intercalate, List.map_append]
  rfl

theorem linesInside_spread {rows : List Row} (laid : Laid rows) :
    linesInside (spread "" rows) = (rows.filter Row.inside).map Row.text := by
  simp [linesInside, rowsOf_spread laid]

/-! ## Statements on single lines -/

theorem unbroken_name {name : String} (named : isName name = true) : Unbroken name := by
  have word : isWord name.toList = true := (Bool.and_eq_true_iff.mp named).1
  intro broken
  cases chars : name.toList with
  | nil => simp [chars] at broken
  | cons first rest =>
    simp only [chars, isWord, Bool.and_eq_true, List.all_eq_true] at word
    rw [chars] at broken
    rcases List.mem_cons.mp broken with rfl | inside
    · exact absurd word.1 (by decide)
    · exact absurd (word.2 _ inside) (by decide)

theorem unbroken_typeName (sourceType : String) : Unbroken (typeName sourceType) := by
  unfold typeName
  split <;> decide

/-- A line break in a literal is escaped. -/
theorem unbroken_literal (value : String) : Unbroken (literal value) := by
  have escaped (char : Char) : '\n' ∉ escapeChar char := by
    unfold escapeChar
    split <;> simp_all [eq_comm]
  simp [literal, escape, Unbroken, escaped]

theorem unbroken_operandText {text : String} (unbroken : Unbroken text) (precedence parent : Nat)
    (isRight : Bool) : Unbroken (operandText text precedence parent isRight) := by
  unfold operandText
  split
  · simp +decide [unbroken]
  · exact unbroken

theorem unbroken_expression : (expression : Expression) → expression.isWellFormed = true →
    Unbroken (Cpp.expression expression)
  | .binary operator left right, wellFormed => by
    rw [Expression.isWellFormed, Bool.and_eq_true] at wellFormed
    have left := unbroken_expression left wellFormed.1
    have right := unbroken_expression right wellFormed.2
    have symbol : Unbroken operator.symbol := by cases operator <;> decide
    simp +decide [Cpp.expression, unbroken_operandText, left, right, symbol]
  | .identifier name, wellFormed => unbroken_name wellFormed
  | .number value, wellFormed => by
    obtain ⟨-, digits, -⟩ := numeral_of_isWellFormed wellFormed
    intro broken
    exact absurd (digits _ broken) (by decide)
  | .string value, _ => unbroken_literal value

theorem getLast?_append {text ending : String} {last : Char}
    (ends : ending.toList.getLast? = some last) : (text ++ ending).toList.getLast? = some last := by
  rw [String.toList_append, List.getLast?_append, ends]
  rfl

/-- A statement in a function is a line that ends in a semicolon. -/
theorem innerText_line (owner : String) {text : String} {statement : Statement}
    (wellFormed : statement.isWellFormed = true) (rendered : innerText owner statement = .ok text) :
    Unbroken text ∧ text.toList.getLast? = some ';' := by
  cases statement with
  | variableDeclaration name sourceType value =>
    simp only [Statement.isWellFormed, Bool.and_eq_true] at wellFormed
    cases rendered
    have named := unbroken_name wellFormed.1.1
    have valued := unbroken_expression value wellFormed.2
    constructor
    · simp +decide [variableText, unbroken_typeName, named, valued]
    · exact getLast?_append rfl
  | functionDeclaration => cases rendered
  | returnStatement argument =>
    cases rendered
    cases argument with
    | none => exact ⟨by decide, by decide⟩
    | some argument =>
      have valued := unbroken_expression argument wellFormed
      constructor
      · simp +decide [returnText, valued]
      · exact getLast?_append rfl

theorem unbroken_headerText {name returnType : String} {parameters : List Parameter}
    (named : isName name = true) (wellFormed : parameters.all Parameter.isWellFormed = true) :
    Unbroken (headerText name parameters returnType) := by
  have parameter : ∀ text ∈ parameters.map parameterText, Unbroken text := by
    intro text member
    obtain ⟨parameter, among, rfl⟩ := List.mem_map.mp member
    have proper := Bool.and_eq_true_iff.mp (List.all_eq_true.mp wellFormed parameter among)
    simp +decide [parameterText, unbroken_typeName, unbroken_name proper.1]
  have list := unbroken_intercalate (by decide : Unbroken ", ") parameter
  simp +decide [headerText, unbroken_typeName, unbroken_name named, list]

/-! ## Rows of programs that can be written -/

theorem eq_ok_of_bind_pure {α β : Type} {attempt : Except EmitError α} {result : α → β} {value : β}
    (h : (attempt >>= fun found => pure (result found)) = .ok value) :
    ∃ found, attempt = .ok found ∧ value = result found := by
  cases attempt with
  | error error => cases h
  | ok found =>
    cases h
    exact ⟨found, rfl, rfl⟩

theorem map_ok_of_mapM {α β ε : Type} {f : α → Except ε β} {items : List α} {results : List β}
    (otherwise : β) (h : items.mapM f = .ok results) : results.map .ok = items.map f := by
  obtain ⟨mapped, each⟩ := map_of_mapM otherwise h
  rw [mapped, List.map_map]
  exact List.map_congr_left fun item member => (each item member).symm

theorem exists_of_mem_mapM {α β ε : Type} {f : α → Except ε β} {items : List α} {results : List β}
    (h : items.mapM f = .ok results) {result : β} (member : result ∈ results) :
    ∃ item ∈ items, f item = .ok result := by
  have among : .ok result ∈ results.map (Except.ok : β → Except ε β) := List.mem_map_of_mem member
  rw [map_ok_of_mapM result h] at among
  exact List.mem_map.mp among

theorem laid_outerRows {statement : Statement} {rows : List Row}
    (wellFormed : statement.isWellFormed = true) (placed : outerRows statement = .ok rows) :
    Laid rows := by
  cases statement with
  | variableDeclaration name sourceType value =>
    cases placed
    obtain ⟨unbroken, ends⟩ := innerText_line "" wellFormed rfl
    exact .line unbroken (by simp [ends])
  | functionDeclaration name parameters returnType body =>
    simp only [Statement.isWellFormed, Bool.and_eq_true, Statement.allWellFormed_iff] at wellFormed
    obtain ⟨⟨⟨named, parameters'⟩, -⟩, body'⟩ := wellFormed
    obtain ⟨lines, rendered, rfl⟩ := eq_ok_of_bind_pure placed
    have line : ∀ text ∈ lines, Unbroken text ∧ text.toList.getLast? = some ';' := by
      intro text member
      obtain ⟨statement, among, rendered⟩ := exists_of_mem_mapM rendered member
      exact innerText_line name (body' statement among) rendered
    refine .function (unbroken_headerText named parameters') (getLast?_append rfl)
      (fun text member => (line text member).1) fun closing => ?_
    exact absurd (line _ closing).2 (by decide)
  | returnStatement => cases placed

theorem laid_includeRows (strings : Prop) [Decidable strings] : Laid (includeRows strings) := by
  unfold includeRows
  split
  · have line : Laid [⟨false, "#include <string>"⟩] := .line (by decide) (by decide)
    exact line.append .blank
  · exact .nil

theorem laid_programRows {program : Program} {rows : List Row}
    (wellFormed : program.isWellFormed = true) (placed : programRows program = .ok rows) :
    Laid rows := by
  obtain ⟨rows', found, rfl⟩ := eq_ok_of_bind_pure placed
  refine (laid_includeRows _).append (.intercalate fun row member => ?_)
  obtain ⟨statement, among, placed⟩ := exists_of_mem_mapM found member
  exact laid_outerRows (Statement.allWellFormed_iff.mp wellFormed statement among) placed

/-- The rows inside of functions are the statements of their bodies. -/
theorem inside_outerRows {statement : Statement} {rows : List Row}
    (placed : outerRows statement = .ok rows) :
    ((rows.filter Row.inside).map fun row => .ok row.text) = bodyTexts statement := by
  cases statement with
  | variableDeclaration =>
    cases placed
    rfl
  | functionDeclaration name parameters returnType body =>
    obtain ⟨lines, rendered, rfl⟩ := eq_ok_of_bind_pure placed
    have texts : lines.map .ok = body.map (innerText name) := map_ok_of_mapM "" rendered
    simp [bodyTexts, ← texts, List.filter_map, Function.comp_def]
  | returnStatement => cases placed

theorem filter_intercalate {α : Type} (p : α → Bool) {separator : List α}
    (none : separator.filter p = []) (rows : List (List α)) :
    (separator.intercalate rows).filter p = rows.flatMap (List.filter p) := by
  induction rows with
  | nil => simp
  | cons row rows ih =>
    cases rows with
    | nil => simp
    | cons next rows =>
      rw [List.intercalate_cons_cons, List.filter_append, List.filter_append, none, ih]
      simp

theorem inside_programRows {program : Program} {rows : List Row}
    (placed : programRows program = .ok rows) :
    ((rows.filter Row.inside).map fun row => .ok row.text) = program.body.flatMap bodyTexts := by
  obtain ⟨rows', found, rfl⟩ := eq_ok_of_bind_pure placed
  obtain ⟨rfl, each⟩ := map_of_mapM [] found
  have block : (includeRows (program.Mentions "string")).filter Row.inside = [] := by
    unfold includeRows
    split <;> rfl
  rw [List.filter_append, block, List.nil_append, filter_intercalate _ (by rfl), List.flatMap_map,
    List.map_flatMap]
  exact List.flatMap_congr fun statement among => inside_outerRows (each statement among)

/-- Every statement in a function is a line of its own, and the indentation stands in front of
    exactly these lines, which are those strictly between the first and the last line of a
    function. -/
theorem emit_indents_bodies {source : String} {program : Program}
    (parsed : Program.parse source = .ok program)
    (emittable : ∃ indent text, emit indent program = .ok text) :
    (∀ statement ∈ program.body, ∀ rendered ∈ bodyTexts statement,
      ∃ text, rendered = .ok text ∧ Unbroken text) ∧
    ∃ plain, emit "" program = .ok plain ∧
      (linesInside plain).map .ok = program.body.flatMap bodyTexts ∧
      ∀ indent, emit indent program = .ok (indented indent plain) := by
  have wellFormed := Program.isWellFormed_of_parse parsed
  obtain ⟨indent, text, emitted⟩ := emittable
  rw [emit_eq_spread] at emitted
  cases placed : programRows program with
  | error error =>
    rw [placed] at emitted
    cases emitted
  | ok rows =>
    have laid := laid_programRows wellFormed placed
    have inside := inside_programRows placed
    refine ⟨?lines, spread "" rows, by rw [emit_eq_spread, placed]; rfl, ?bodies,
      fun indent => ?text⟩
    case lines =>
      intro statement among rendered member
      have listed := List.mem_flatMap.mpr ⟨statement, among, member⟩
      rw [← inside] at listed
      obtain ⟨row, isInside, rfl⟩ := List.mem_map.mp listed
      exact ⟨row.text, rfl, laid.unbroken row (List.mem_of_mem_filter isInside)⟩
    case bodies =>
      rw [linesInside_spread laid, List.map_map, ← inside]
      rfl
    case text =>
      rw [emit_eq_spread, placed, indented_spread laid]
      rfl

/-- The braces on lines of their own in the literal end no function and begin none. -/
theorem emit_indents_bodies_multiline :
    ∃ program plain,
      Program.parse "function f(): string \x7b let a: string = '\n\x7d\n\x7b\n'; return a; \x7d" =
        .ok program ∧
      emit "" program = .ok plain ∧
      plain = "#include <string>\n\nstd::string f() \x7b\n" ++
        "std::string a = \"\\n\x7d\\n\x7b\\n\";\nreturn a;\n\x7d\n" ∧
      (linesInside plain).map .ok = program.body.flatMap bodyTexts ∧
      emit "\n" program = .ok (indented "\n" plain) := by
  have parsed : Program.parse
      "function f(): string \x7b let a: string = '\n\x7d\n\x7b\n'; return a; \x7d" =
      .ok ⟨[.functionDeclaration "f" [] "string" [
        .variableDeclaration "a" "string" (.string "\n\x7d\n\x7b\n"),
        .returnStatement (some (.identifier "a"))]]⟩ := by
    cbv
  have emitted : emit "" ⟨[.functionDeclaration "f" [] "string" [
      .variableDeclaration "a" "string" (.string "\n\x7d\n\x7b\n"),
      .returnStatement (some (.identifier "a"))]]⟩ =
      .ok ("#include <string>\n\nstd::string f() \x7b\n" ++
        "std::string a = \"\\n\x7d\\n\x7b\\n\";\nreturn a;\n\x7d\n") := by
    cbv
  obtain ⟨-, plain, same, bodies, indents⟩ := emit_indents_bodies parsed ⟨_, _, emitted⟩
  exact ⟨_, plain, parsed, same, Except.ok.inj (same.symm.trans emitted), bodies, indents "\n"⟩

end TinyScript.Cpp
