import TinyScript.Proofs.CppExpressions

/-!
# C++ text is read back

The C++ text of a program that was read from source text is read back as the same program, whatever
blanks it is indented with. So a C++ text comes from one program only. Each statement has a row of
pieces: its text is taken apart into the row, and the row is read as the statement.
-/

namespace TinyScript.Cpp

/-! ## Rows of pieces for statements -/

/-- The pieces of a type. -/
def typeRow (sourceType : String) : List Piece :=
  if sourceType = "string" then [.word "std", .scope, .word "string"] else [.word "int"]

/-- The pieces of a declaration. -/
def declarationRow (name sourceType : String) (value : Expression) : List Piece :=
  typeRow sourceType ++ .word name :: .mark '=' :: (cppLexis.tokens value ++ [.mark ';'])

/-- The pieces of a return. -/
def returnRow : Option Expression → List Piece
  | some argument => .word "return" :: (cppLexis.tokens argument ++ [.mark ';'])
  | none => [.word "return", .mark ';']

/-- The pieces of a parameter. -/
def parameterRow (parameter : Parameter) : List Piece :=
  typeRow parameter.typeName ++ [.word parameter.name]

/-- The pieces of a statement in a function. -/
def innerRow : Statement → List Piece
  | .variableDeclaration name sourceType value => declarationRow name sourceType value
  | .functionDeclaration .. => []
  | .returnStatement argument => returnRow argument

/-- The pieces of a function. -/
def functionRow (name : String) (parameters : List Parameter) (returnType : String)
    (body : List Statement) : List Piece :=
  typeRow returnType ++ .word name :: .mark '(' ::
    ([.mark ','].intercalate (parameters.map parameterRow) ++ .mark ')' :: .mark '\x7b' ::
      (body.flatMap innerRow ++ [.mark '\x7d']))

/-- The pieces of a statement of the program itself. -/
def outerRow : Statement → List Piece
  | .variableDeclaration name sourceType value => declarationRow name sourceType value
  | .functionDeclaration name parameters returnType body =>
    functionRow name parameters returnType body
  | .returnStatement _ => []

/-! ## The texts of statements -/

theorem writes_type {sourceType : String} (h : typeNames.contains sourceType = true) :
    cppLexis.Writes (typeName sourceType).toList (typeRow sourceType) := by
  rcases eq_of_typeNames h with rfl | rfl
  · have scope : cppLexis.Complete "::".toList [.scope] := by
      intro rest
      have opened : step? .gap ':' = some ([], .colon) := by decide
      have closed : step? .colon ':' = some ([.scope], .gap) := rfl
      show pieces? .gap (':' :: ':' :: rest) = _
      rw [pieces?_of_inside opened, pieces?_of_step closed]
    have standard : cppLexis.Writes "std".toList [.word "std"] := Lexis.writes_word (by decide)
    have string : cppLexis.Writes "string".toList [.word "string"] := Lexis.writes_word (by decide)
    exact (standard.append scope rfl).append_writes string
  · exact Lexis.writes_word (by decide : isWord "int".toList = true)

/-- A type with a name behind it. -/
theorem writes_typed {sourceType name : String} (isType : typeNames.contains sourceType = true)
    (named : isName name = true) :
    cppLexis.Writes (typeName sourceType ++ " " ++ name).toList
      (typeRow sourceType ++ [.word name]) := by
  rw [isName, Bool.and_eq_true] at named
  have typed := (writes_type isType).append Lexis.complete_space rfl
  have whole := typed.append_writes (Lexis.writes_word named.1)
  rw [List.append_nil] at whole
  simp only [String.toList_append]
  exact whole

theorem complete_variableText {name sourceType : String} {value : Expression}
    (wellFormed : (Statement.variableDeclaration name sourceType value).isWellFormed = true) :
    cppLexis.Complete (variableText name sourceType value).toList
      (declarationRow name sourceType value) := by
  simp only [Statement.isWellFormed, Bool.and_eq_true] at wellFormed
  obtain ⟨⟨named, isType⟩, valueWellFormed⟩ := wellFormed
  have assign : cppLexis.Complete " = ".toList [.mark '='] :=
    (Lexis.complete_space.append (Lexis.complete_mark '=' (by decide))).append
      Lexis.complete_space
  have assigned := (writes_typed isType named).append assign rfl
  have valued := assigned.append_writes (Lexis.writes_render value valueWellFormed)
  have whole := valued.append (Lexis.complete_mark ';' (by decide)) rfl
  simp only [String.toList_append] at whole
  simp only [variableText, expression_eq_render, String.toList_append]
  refine (congrArg (cppLexis.Complete _) ?_).mp whole
  simp only [declarationRow, List.append_assoc]
  rfl

theorem complete_returnText {argument : Option Expression}
    (wellFormed : (Statement.returnStatement argument).isWellFormed = true) :
    cppLexis.Complete (returnText argument).toList (returnRow argument) := by
  have keyword : cppLexis.Writes "return".toList [.word "return"] := Lexis.writes_word (by decide)
  have semicolon : cppLexis.Complete ";".toList [.mark ';'] :=
    Lexis.complete_mark ';' (by decide)
  cases argument with
  | none => exact keyword.append semicolon rfl
  | some argument =>
    have valued := (keyword.append Lexis.complete_space rfl).append_writes
      (Lexis.writes_render argument wellFormed)
    have whole := valued.append semicolon rfl
    simp only [returnText, expression_eq_render, String.toList_append]
    exact whole

theorem complete_innerText {outer text : String} {statement : Statement}
    (wellFormed : statement.isWellFormed = true) (emitted : innerText outer statement = .ok text) :
    cppLexis.Complete text.toList (innerRow statement) := by
  cases statement with
  | variableDeclaration name sourceType value =>
    cases emitted
    exact complete_variableText wellFormed
  | functionDeclaration name parameters returnType body => cases emitted
  | returnStatement argument =>
    cases emitted
    exact complete_returnText wellFormed

/-- What a step that succeeds on all elements of a list gives. -/
theorem map_of_mapM {α β ε : Type} {f : α → Except ε β} {items : List α} {results : List β}
    (otherwise : β) (h : items.mapM f = .ok results) :
    results = items.map (fun item => (f item).toOption.getD otherwise) ∧
      ∀ item ∈ items, f item = .ok ((f item).toOption.getD otherwise) := by
  induction items generalizing results with
  | nil =>
    cases h
    exact ⟨rfl, List.forall_mem_nil _⟩
  | cons item items ih =>
    rw [List.mapM_cons] at h
    cases first : f item with
    | error error =>
      rw [first] at h
      cases h
    | ok result =>
      cases others : items.mapM f with
      | error error =>
        rw [first, others] at h
        cases h
      | ok more =>
        rw [first, others] at h
        cases h
        obtain ⟨rfl, all⟩ := ih others
        refine ⟨by simp [first, Except.toOption], List.forall_mem_cons.mpr ⟨?_, all⟩⟩
        rw [first]
        rfl

/-- The lines of a function's body, whatever blanks stand before them. -/
theorem complete_lines {indent : String} (blank : ∀ char ∈ indent.toList, isBlank char = true)
    {line : Statement → String} (body : List Statement)
    (each : ∀ statement ∈ body, cppLexis.Complete (line statement).toList (innerRow statement)) :
    cppLexis.Complete
      (String.join (body.map fun statement => indent ++ line statement ++ "\n")).toList
      (body.flatMap innerRow) := by
  rw [String.toList_join]
  induction body with
  | nil => exact Lexis.complete_empty
  | cons statement body ih =>
    obtain ⟨first, others⟩ := List.forall_mem_cons.mp each
    have line := ((Lexis.complete_blanks blank).append first).append Lexis.complete_newline
    have whole := line.append (ih others)
    simpa using whole

theorem writes_parameters {parameters : List Parameter}
    (wellFormed : parameters.all Parameter.isWellFormed = true) :
    cppLexis.Writes (String.intercalate ", " (parameters.map parameterText)).toList
      ([.mark ','].intercalate (parameters.map parameterRow)) := by
  have comma : cppLexis.Complete ", ".toList [.mark ','] :=
    (Lexis.complete_mark ',' (by decide)).append Lexis.complete_space
  rw [String.toList_intercalate, List.map_map]
  apply Lexis.writes_intercalate comma rfl
  intro parameter member
  have each := List.all_eq_true.mp wellFormed parameter member
  rw [Parameter.isWellFormed, Bool.and_eq_true] at each
  exact writes_typed each.2 each.1

/-- A function with a text has texts for all statements in it. -/
theorem functionText_eq_ok {indent name returnType text : String} {parameters : List Parameter}
    {body : List Statement}
    (emitted : functionText indent name parameters returnType body = .ok text) :
    ∃ line : Statement → String,
      (∀ statement ∈ body, innerText name statement = .ok (line statement)) ∧
      text = typeName returnType ++ " " ++ name ++ "(" ++
        String.intercalate ", " (parameters.map parameterText) ++ ") \x7b\n" ++
        String.join (body.map fun statement => indent ++ line statement ++ "\n") ++ "\x7d" := by
  unfold functionText at emitted
  cases lines : body.mapM (innerText name) with
  | error error =>
    rw [lines] at emitted
    cases emitted
  | ok texts =>
    obtain ⟨mapped, all⟩ := map_of_mapM "" lines
    rw [lines] at emitted
    cases emitted
    rw [mapped, List.map_map]
    exact ⟨_, all, rfl⟩

theorem complete_functionText {indent name returnType text : String} {parameters : List Parameter}
    {body : List Statement} (blank : ∀ char ∈ indent.toList, isBlank char = true)
    (wellFormed :
      (Statement.functionDeclaration name parameters returnType body).isWellFormed = true)
    (emitted : functionText indent name parameters returnType body = .ok text) :
    cppLexis.Complete text.toList (functionRow name parameters returnType body) := by
  simp only [Statement.isWellFormed, Bool.and_eq_true] at wellFormed
  obtain ⟨⟨⟨named, parametersWellFormed⟩, isType⟩, bodyWellFormed⟩ := wellFormed
  obtain ⟨line, lines, rfl⟩ := functionText_eq_ok emitted
  have each (statement : Statement) (member : statement ∈ body) :=
    complete_innerText (Statement.allWellFormed_iff.mp bodyWellFormed statement member)
      (lines statement member)
  have opened := (writes_typed isType named).append (Lexis.complete_mark '(' (by decide)) rfl
  have closing : cppLexis.Complete ") \x7b\n".toList [.mark ')', .mark '\x7b'] :=
    (((Lexis.complete_mark ')' (by decide)).append Lexis.complete_space).append
      (Lexis.complete_mark '\x7b' (by decide))).append Lexis.complete_newline
  have listed := (opened.append_writes (writes_parameters parametersWellFormed)).append closing rfl
  have whole := (listed.append (complete_lines blank body each)).append
    (Lexis.complete_mark '\x7d' (by decide))
  simp only [String.toList_append] at whole ⊢
  refine (congrArg (cppLexis.Complete _) ?_).mp whole
  simp only [functionRow, List.append_assoc]
  rfl

theorem complete_outerText {indent text : String} {statement : Statement}
    (blank : ∀ char ∈ indent.toList, isBlank char = true)
    (wellFormed : statement.isWellFormed = true) (emitted : outerText indent statement = .ok text) :
    cppLexis.Complete text.toList (outerRow statement) := by
  cases statement with
  | variableDeclaration name sourceType value =>
    cases emitted
    exact complete_variableText wellFormed
  | functionDeclaration name parameters returnType body =>
    exact complete_functionText blank wellFormed emitted
  | returnStatement argument => cases emitted

/-! ## Reading the rows back -/

namespace Reader

theorem type_typeRow {sourceType : String} (h : typeNames.contains sourceType = true)
    (rest : List Piece) : type (typeRow sourceType ++ rest) = some (sourceType, rest) := by
  rcases eq_of_typeNames h with rfl | rfl <;> rfl

/-- The value of a declaration, given a bound that is enough for the whole of it. -/
theorem declaration_tokens {name sourceType : String} {value : Expression}
    (wellFormed : value.isWellFormed = true) {bound : Nat}
    (enough : (declarationRow name sourceType value).length ≤ bound) (rest : List Piece) :
    declaration bound sourceType name (cppLexis.tokens value ++ .mark ';' :: rest) =
      some (.variableDeclaration name sourceType value, rest) := by
  simp only [declarationRow, List.length_append, List.length_cons] at enough
  rw [declaration, expression_tokens wellFormed (by omega)]
  rfl

theorem outer_declarationRow {name sourceType : String} {value : Expression}
    (wellFormed : (Statement.variableDeclaration name sourceType value).isWellFormed = true)
    {bound : Nat} (enough : (declarationRow name sourceType value).length ≤ bound)
    (rest : List Piece) :
    outer bound (declarationRow name sourceType value ++ rest) =
      some (.variableDeclaration name sourceType value, rest) := by
  simp only [Statement.isWellFormed, Bool.and_eq_true] at wellFormed
  have read := declaration_tokens wellFormed.2 enough rest
  simp only [declarationRow, List.append_assoc, List.cons_append]
  rw [outer, type_typeRow wellFormed.1.2]
  exact read

/-- A type does not start a return. -/
theorem inner_typeRow {sourceType : String} (h : typeNames.contains sourceType = true)
    (bound : Nat) (rest : List Piece) :
    inner bound (typeRow sourceType ++ rest) = (do
      let (name, rest) ← name rest
      let rest ← mark '=' rest
      declaration bound sourceType name rest) := by
  rcases eq_of_typeNames h with rfl | rfl <;> rfl

theorem inner_declarationRow {name sourceType : String} {value : Expression}
    (wellFormed : (Statement.variableDeclaration name sourceType value).isWellFormed = true)
    {bound : Nat} (enough : (declarationRow name sourceType value).length ≤ bound)
    (rest : List Piece) :
    inner bound (declarationRow name sourceType value ++ rest) =
      some (.variableDeclaration name sourceType value, rest) := by
  simp only [Statement.isWellFormed, Bool.and_eq_true] at wellFormed
  have read := declaration_tokens wellFormed.2 enough rest
  simp only [declarationRow, List.append_assoc, List.cons_append]
  rw [inner_typeRow wellFormed.1.2]
  exact read

theorem expression_semicolon (bound : Nat) (rest : List Piece) :
    expression bound (.mark ';' :: rest) = none := by
  cases bound <;> rfl

theorem inner_returnRow {argument : Option Expression}
    (wellFormed : (Statement.returnStatement argument).isWellFormed = true) {bound : Nat}
    (enough : (returnRow argument).length ≤ bound) (rest : List Piece) :
    inner bound (returnRow argument ++ rest) = some (.returnStatement argument, rest) := by
  cases argument with
  | none => rfl
  | some argument =>
    simp only [returnRow, List.length_append, List.length_cons] at enough
    have read := expression_tokens wellFormed
      (show (cppLexis.tokens argument).length < bound by omega) rest
    -- The reader looks for the semicolon of an empty return first, and an expression has none.
    have valued (rest' : List Piece) :
        cppLexis.tokens argument ++ .mark ';' :: rest ≠ .mark ';' :: rest' := by
      intro empty
      rw [empty, expression_semicolon] at read
      cases read
    simp only [returnRow, List.append_assoc, List.cons_append, List.nil_append]
    show returned bound (cppLexis.tokens argument ++ .mark ';' :: rest) = _
    rw [returned.eq_2 _ _ valued, read]
    rfl

theorem inner_innerRow {owner text : String} {statement : Statement}
    (wellFormed : statement.isWellFormed = true) (emitted : innerText owner statement = .ok text)
    {bound : Nat} (enough : (innerRow statement).length ≤ bound) (rest : List Piece) :
    inner bound (innerRow statement ++ rest) = some (statement, rest) := by
  cases statement with
  | variableDeclaration name sourceType value => exact inner_declarationRow wellFormed enough rest
  | functionDeclaration name parameters returnType body => cases emitted
  | returnStatement argument => exact inner_returnRow wellFormed enough rest

/-- Statements are read one after the other up to the place where they end. -/
theorem statementsUntil_flatMap (ends : List Piece → Bool) {statement : Reader Statement}
    {row : Statement → List Piece} {body : List Statement} (rest : List Piece)
    (reads : ∀ item ∈ body, ∀ rest, statement (row item ++ rest) = some (item, rest))
    (goesOn : ∀ item ∈ body, ∀ rest, ends (row item ++ rest) = false) (ended : ends rest = true)
    {rounds : Nat} (enough : body.length ≤ rounds) :
    statementsUntil ends statement rounds (body.flatMap row ++ rest) = some (body, rest) := by
  induction body generalizing rounds with
  | nil =>
    cases rounds <;> simp [statementsUntil, ended]
  | cons item body ih =>
    obtain ⟨readsFirst, reads⟩ := List.forall_mem_cons.mp reads
    obtain ⟨notFirst, goesOn⟩ := List.forall_mem_cons.mp goesOn
    cases rounds with
    | zero => cases enough
    | succ rounds =>
      rw [List.flatMap_cons, List.append_assoc, statementsUntil, if_neg (by simp [notFirst]),
        readsFirst]
      simp [ih reads goesOn (Nat.le_of_succ_le_succ enough)]

theorem parameters_intercalate {parameters : List Parameter} (nonempty : parameters ≠ [])
    (wellFormed : parameters.all Parameter.isWellFormed = true) {rounds : Nat}
    (enough : parameters.length ≤ rounds) (rest : List Piece) :
    Reader.parameters rounds ([.mark ','].intercalate (parameters.map parameterRow) ++
      .mark ')' :: rest) = some (parameters, rest) := by
  induction parameters generalizing rounds with
  | nil => exact absurd rfl nonempty
  | cons parameter others ih =>
    rw [List.all_cons, Bool.and_eq_true, Parameter.isWellFormed, Bool.and_eq_true] at wellFormed
    cases rounds with
    | zero => cases enough
    | succ rounds =>
      cases others with
      | nil =>
        rw [List.map_singleton, List.intercalate_singleton, parameterRow, List.append_assoc,
          Reader.parameters, type_typeRow wellFormed.1.2]
        rfl
      | cons next others =>
        have later := ih (List.cons_ne_nil next others) wellFormed.2
          (Nat.le_of_succ_le_succ enough)
        rw [List.map_cons, List.map_cons, List.intercalate_cons_cons, ← List.map_cons,
          parameterRow, List.append_assoc, List.append_assoc, List.append_assoc, Reader.parameters,
          type_typeRow wellFormed.1.2]
        rw [List.map_cons] at later
        simp [name, later]

theorem parameters_rParen (rounds : Nat) (rest : List Piece) :
    Reader.parameters rounds (.mark ')' :: rest) = none := by
  cases rounds <;> rfl

theorem parameterList_intercalate {parameters : List Parameter}
    (wellFormed : parameters.all Parameter.isWellFormed = true) {bound : Nat}
    (enough : parameters.length ≤ bound) (rest : List Piece) :
    parameterList bound ([.mark ','].intercalate (parameters.map parameterRow) ++
      .mark ')' :: rest) = some (parameters, rest) := by
  cases parameters with
  | nil => rfl
  | cons parameter others =>
    have read := parameters_intercalate (List.cons_ne_nil parameter others) wellFormed enough rest
    have notClosed (rest' : List Piece) :
        [.mark ','].intercalate ((parameter :: others).map parameterRow) ++ .mark ')' :: rest ≠
          .mark ')' :: rest' := by
      intro closed
      rw [closed, parameters_rParen] at read
      cases read
    rw [parameterList.eq_2 _ _ notClosed, read]

end Reader

/-! ## Rows and their lengths -/

theorem nil_intercalate {α : Type} (rows : List (List α)) : [].intercalate rows = rows.flatten := by
  induction rows with
  | nil => rfl
  | cons row rows ih =>
    cases rows with
    | nil => simp
    | cons next rows =>
      rw [List.intercalate_cons_cons, ih]
      simp

/-- A list is no longer than the rows of its elements together. -/
theorem length_le_intercalate {α β : Type} (separator : List β) (row : α → List β)
    {items : List α} (nonempty : ∀ item ∈ items, row item ≠ []) :
    items.length ≤ (separator.intercalate (items.map row)).length := by
  induction items with
  | nil => exact Nat.zero_le _
  | cons item items ih =>
    obtain ⟨first, others⟩ := List.forall_mem_cons.mp nonempty
    have positive := List.length_pos_iff.mpr first
    cases items with
    | nil =>
      rw [List.map_singleton, List.intercalate_singleton]
      exact positive
    | cons next items =>
      have more := ih others
      rw [List.map_cons] at more
      rw [List.map_cons, List.map_cons, List.intercalate_cons_cons, List.length_append,
        List.length_append, List.length_cons]
      omega

theorem length_le_flatMap {α β : Type} (row : α → List β) {items : List α}
    (nonempty : ∀ item ∈ items, row item ≠ []) : items.length ≤ (items.flatMap row).length := by
  rw [List.flatMap_def, ← nil_intercalate]
  exact length_le_intercalate [] row nonempty

theorem length_row_le_flatMap {α β : Type} (row : α → List β) {items : List α} {item : α}
    (h : item ∈ items) : (row item).length ≤ (items.flatMap row).length := by
  rw [List.flatMap_def]
  exact (List.sublist_flatten_of_mem (List.mem_map_of_mem h)).length_le

/-- The rows of types and of the statements that have a text start with a word. -/
def StartsWithWord (row : List Piece) : Prop :=
  ∃ word more, row = .word word :: more

theorem typeRow_startsWithWord (sourceType : String) (rest : List Piece) :
    StartsWithWord (typeRow sourceType ++ rest) := by
  unfold typeRow
  split
  · exact ⟨_, _, rfl⟩
  · exact ⟨_, _, rfl⟩

theorem innerRow_startsWithWord {owner text : String} {statement : Statement}
    (emitted : innerText owner statement = .ok text) : StartsWithWord (innerRow statement) := by
  cases statement with
  | variableDeclaration name sourceType value => exact typeRow_startsWithWord sourceType _
  | functionDeclaration name parameters returnType body => cases emitted
  | returnStatement argument => cases argument <;> exact ⟨_, _, rfl⟩

theorem outerRow_startsWithWord {indent text : String} {statement : Statement}
    (emitted : outerText indent statement = .ok text) : StartsWithWord (outerRow statement) := by
  cases statement with
  | variableDeclaration name sourceType value => exact typeRow_startsWithWord sourceType _
  | functionDeclaration name parameters returnType body => exact typeRow_startsWithWord returnType _
  | returnStatement argument => cases emitted

theorem StartsWithWord.ne_nil {row : List Piece} (h : StartsWithWord row) : row ≠ [] := by
  obtain ⟨word, more, rfl⟩ := h
  exact List.cons_ne_nil _ _

/-! ## Programs -/

theorem Reader.outer_functionRow {indent name returnType text : String}
    {parameters : List Parameter} {body : List Statement}
    (wellFormed :
      (Statement.functionDeclaration name parameters returnType body).isWellFormed = true)
    (emitted : functionText indent name parameters returnType body = .ok text) {bound : Nat}
    (enough : (functionRow name parameters returnType body).length ≤ bound) (rest : List Piece) :
    outer bound (functionRow name parameters returnType body ++ rest) =
      some (.functionDeclaration name parameters returnType body, rest) := by
  simp only [Statement.isWellFormed, Bool.and_eq_true] at wellFormed
  obtain ⟨⟨⟨-, parametersWellFormed⟩, isType⟩, bodyWellFormed⟩ := wellFormed
  obtain ⟨line, lines, -⟩ := functionText_eq_ok emitted
  simp only [functionRow, List.length_append, List.length_cons] at enough
  have manyParameters : parameters.length ≤ bound := by
    have fewer := length_le_intercalate [.mark ','] parameterRow fun parameter
      (_ : parameter ∈ parameters) => (typeRow_startsWithWord parameter.typeName _).ne_nil
    omega
  have manyStatements : body.length ≤ bound := by
    have fewer := length_le_flatMap innerRow fun statement member =>
      (innerRow_startsWithWord (lines statement member)).ne_nil
    omega
  have reads : ∀ statement ∈ body, ∀ rest,
      inner bound (innerRow statement ++ rest) = some (statement, rest) := by
    intro statement member
    have shorter := length_row_le_flatMap innerRow member
    exact inner_innerRow (Statement.allWellFormed_iff.mp bodyWellFormed statement member)
      (lines statement member) (by omega)
  have goesOn : ∀ statement ∈ body, ∀ rest,
      decide ((innerRow statement ++ rest).head? = some (.mark '\x7d')) = false := by
    intro statement member rest
    obtain ⟨word, more, row⟩ := innerRow_startsWithWord (lines statement member)
    rw [row]
    rfl
  have statements := statementsUntil_flatMap (·.head? = some (.mark '\x7d'))
    (.mark '\x7d' :: rest) reads goesOn rfl manyStatements
  have listed := parameterList_intercalate parametersWellFormed manyParameters
    (.mark '\x7b' :: (body.flatMap innerRow ++ .mark '\x7d' :: rest))
  simp only [functionRow, List.append_assoc, List.cons_append, List.nil_append]
  rw [outer, type_typeRow isType]
  show function bound returnType name _ = _
  rw [function, listed]
  simp [mark, statements]

theorem Reader.outer_outerRow {indent text : String} {statement : Statement}
    (wellFormed : statement.isWellFormed = true) (emitted : outerText indent statement = .ok text)
    {bound : Nat} (enough : (outerRow statement).length ≤ bound) (rest : List Piece) :
    outer bound (outerRow statement ++ rest) = some (statement, rest) := by
  cases statement with
  | variableDeclaration name sourceType value => exact outer_declarationRow wellFormed enough rest
  | functionDeclaration name parameters returnType body =>
    exact outer_functionRow wellFormed emitted enough rest
  | returnStatement argument => cases emitted

/-- The text of a program without its include block is taken apart into the rows of its
    statements, and these have texts. -/
theorem complete_bodyText {indent text : String} {program : Program}
    (blank : ∀ char ∈ indent.toList, isBlank char = true)
    (wellFormed : program.isWellFormed = true) (emitted : bodyText indent program = .ok text) :
    cppLexis.Complete text.toList (program.body.flatMap outerRow) ∧
      ∀ statement ∈ program.body, ∃ text, outerText indent statement = .ok text := by
  obtain ⟨body⟩ := program
  unfold bodyText at emitted
  cases results : body.mapM (outerText indent) with
  | error error =>
    rw [results] at emitted
    cases emitted
  | ok texts =>
    obtain ⟨mapped, all⟩ := map_of_mapM "" results
    rw [results] at emitted
    cases emitted
    refine ⟨?_, fun statement member => ⟨_, all statement member⟩⟩
    have each (statement : Statement) (member : statement ∈ body) :=
      (complete_outerText blank (Statement.allWellFormed_iff.mp wellFormed statement member)
        (all statement member)).writes
    have gap : cppLexis.Complete "\n\n".toList [] :=
      Lexis.complete_newline.append Lexis.complete_newline
    have whole := (Lexis.writes_intercalate gap rfl body each).append Lexis.complete_newline rfl
    rw [nil_intercalate, ← List.flatMap_def, List.append_nil] at whole
    rw [mapped]
    cases body with
    | nil => exact Lexis.complete_empty
    | cons statement body =>
      rw [if_neg (by simp), String.toList_append, String.toList_intercalate, List.map_map]
      exact whole

theorem requireType_string (sourceType : String) :
    Includes.requireType ⟨["string"]⟩ sourceType = ⟨["string"]⟩ := by
  unfold Includes.requireType typeHeader?
  split <;> rfl

/-- Strings alone need a header, and it is asked for once. -/
theorem foldl_requireType (types : List String) :
    types.foldl Includes.requireType {} = if "string" ∈ types then ⟨["string"]⟩ else {} := by
  induction types with
  | nil => rfl
  | cons sourceType types ih =>
    by_cases same : sourceType = "string"
    · subst same
      rw [if_pos List.mem_cons_self, List.foldl_cons]
      exact List.foldl_fixed' requireType_string types
    · have unchanged : Includes.requireType {} sourceType = {} := by
        unfold Includes.requireType typeHeader?
        split
        · exact absurd rfl same
        · rfl
      rw [List.foldl_cons, unchanged, ih]
      simp [Ne.symm same]

theorem includesOf_eq (program : Program) :
    includesOf program = if "string" ∈ typesUsedInAll program.body then ⟨["string"]⟩ else {} :=
  foldl_requireType _

theorem includesOf_headers (program : Program) :
    (includesOf program).headers = [] ∨ (includesOf program).headers = ["string"] := by
  rw [includesOf_eq]
  split
  · exact .inr rfl
  · exact .inl rfl

theorem pieces?_of_complete {text : List Char} {row : List Piece}
    (complete : cppLexis.Complete text row) : pieces? .gap text = some row := by
  have whole : pieces? .gap (text ++ []) = some (row ++ []) := complete []
  rwa [List.append_nil, List.append_nil] at whole

/-- A text that is taken apart has no include line of its own. -/
theorem behindInclude_of_complete {text : List Char} {row : List Piece}
    (complete : cppLexis.Complete text row) : behindInclude text = text := by
  have whole := pieces?_of_complete complete
  apply if_neg
  intro included
  obtain ⟨rest, rfl⟩ := List.isPrefixOf_iff_prefix.mp included
  -- No piece starts with the first character of the line.
  cases whole

theorem behindInclude_includeLine (text : List Char) :
    behindInclude (includeLine ++ text) = text := by
  rw [behindInclude, if_pos, List.drop_left]
  rw [List.isPrefixOf_iff_prefix]
  exact List.prefix_append _ _

/-- Behind the include line, a text has the pieces of its statements. -/
theorem pieces?_emit {indent text : String} {program : Program}
    (blank : ∀ char ∈ indent.toList, isBlank char = true)
    (wellFormed : program.isWellFormed = true) (emitted : emit indent program = .ok text) :
    pieces? .gap (behindInclude text.toList) = some (program.body.flatMap outerRow) ∧
      ∀ statement ∈ program.body, ∃ text, outerText indent statement = .ok text := by
  unfold emit at emitted
  cases result : bodyText indent program with
  | error error =>
    rw [result] at emitted
    cases emitted
  | ok body =>
    rw [result] at emitted
    cases emitted
    obtain ⟨complete, texts⟩ := complete_bodyText blank wellFormed result
    refine ⟨?_, texts⟩
    rw [String.toList_append]
    rcases includesOf_headers program with none | one
    · have empty : (includesOf program).render.toList = [] := by
        simp [Includes.render, Includes.isEmpty, none]
      rw [empty, List.nil_append, behindInclude_of_complete complete]
      exact pieces?_of_complete complete
    · have line : (includesOf program).render.toList = includeLine ++ ['\n'] := by
        rw [Includes.render, Includes.isEmpty, one]
        rfl
      rw [line, List.append_assoc, behindInclude_includeLine]
      exact pieces?_of_complete (Lexis.complete_newline.append complete)

/-- The C++ text of a well-formed program is read as the program. -/
theorem read_emit {indent text : String} {program : Program}
    (blank : ∀ char ∈ indent.toList, isBlank char = true)
    (wellFormed : program.isWellFormed = true) (emitted : emit indent program = .ok text) :
    read text = some program := by
  obtain ⟨pieces, texts⟩ := pieces?_emit blank wellFormed emitted
  have reads : ∀ statement ∈ program.body, ∀ rest,
      Reader.outer (program.body.flatMap outerRow).length (outerRow statement ++ rest) =
        some (statement, rest) := by
    intro statement member
    obtain ⟨text, emitted⟩ := texts statement member
    exact Reader.outer_outerRow (Statement.allWellFormed_iff.mp wellFormed statement member) emitted
      (length_row_le_flatMap outerRow member)
  have words : ∀ statement ∈ program.body, StartsWithWord (outerRow statement) := by
    intro statement member
    obtain ⟨text, emitted⟩ := texts statement member
    exact outerRow_startsWithWord emitted
  have goesOn : ∀ statement ∈ program.body, ∀ rest,
      (outerRow statement ++ rest).isEmpty = false := by
    intro statement member rest
    obtain ⟨word, more, row⟩ := words statement member
    rw [row]
    rfl
  have statements := Reader.statementsUntil_flatMap List.isEmpty [] reads goesOn rfl
    (length_le_flatMap outerRow fun statement member => (words statement member).ne_nil)
  rw [List.append_nil] at statements
  simp only [read, pieces, Option.bind_eq_bind, Option.bind_some, statements]
  rfl

/-- The C++ text of a program that was read from source text is read back as the program, and no
    other such program has the same C++ text, however the two are indented. -/
theorem read_emit_of_parse {source indent text : String} {program : Program}
    (parsed : Program.parse source = .ok program)
    (blank : ∀ char ∈ indent.toList, isBlank char = true)
    (emitted : emit indent program = .ok text) :
    read text = some program ∧
      ∀ (source' indent' : String) (program' : Program), Program.parse source' = .ok program' →
        (∀ char ∈ indent'.toList, isBlank char = true) → emit indent' program' = .ok text →
        program' = program := by
  have reads := read_emit blank (Program.isWellFormed_of_parse parsed) emitted
  refine ⟨reads, ?_⟩
  intro source' indent' program' parsed' blank' emitted'
  have reads' := read_emit blank' (Program.isWellFormed_of_parse parsed') emitted'
  rw [reads] at reads'
  exact (Option.some.inj reads').symm

/-- Escapes, parentheses, a name that is a word of C++, and an include line. -/
theorem read_emit_of_parse_escapes :
    ∃ program text,
      Program.parse
        "function f(a: string): string \x7b let int: string = '\"\\'; return int - (a - b); \x7d" =
        .ok program ∧
      emit "\t" program = .ok text ∧ read text = some program := by
  have parsed : Program.parse
      "function f(a: string): string \x7b let int: string = '\"\\'; return int - (a - b); \x7d" =
      .ok ⟨[.functionDeclaration "f" [⟨"a", "string"⟩] "string"
        [.variableDeclaration "int" "string" (.string "\"\\"),
          .returnStatement (some (.binary .sub (.identifier "int")
            (.binary .sub (.identifier "a") (.identifier "b"))))]]⟩ := by
    cbv
  have emitted : emit "\t" ⟨[.functionDeclaration "f" [⟨"a", "string"⟩] "string"
        [.variableDeclaration "int" "string" (.string "\"\\"),
          .returnStatement (some (.binary .sub (.identifier "int")
            (.binary .sub (.identifier "a") (.identifier "b"))))]]⟩ =
      .ok ("#include <string>\n\nstd::string f(std::string a) \x7b\n" ++
        "\tstd::string int = \"\\\"\\\\\";\n\treturn int - (a - b);\n\x7d\n") := by
    cbv
  have blank : ∀ char ∈ "\t".toList, isBlank char = true := List.all_eq_true.mp (by decide)
  exact ⟨_, _, parsed, emitted, (read_emit_of_parse parsed blank emitted).1⟩

end TinyScript.Cpp
