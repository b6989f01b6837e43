import TinyScript.Program.Printer
import TinyScript.Proofs.Lexis

/-!
# Printed programs are read back

The canonical text of a program is read as the program exactly if the program is well-formed. One
direction follows the printer: each of its texts is taken apart into the symbols of a phrase whose
tree is what was printed. The other direction is that nothing else is ever read.
-/

namespace TinyScript

/-! ## Tokens of source text -/

theorem scans_symbol {char : Char} {kind : TokenKind}
    (isSymbol : TokenKind.symbol? char = some kind) (never : goesOn kind = fun _ => false)
    (rest : List Char) :
    Scans (char :: rest) [⟨kind, String.ofList [char]⟩] rest :=
  .token (.symbol isSymbol) (fun next _ => congrFun never next) (.refl rest)

theorem scans_operator (operator : Operator) (rest : List Char) :
    Scans (operator.symbol.toList ++ ' ' :: rest) [operator.terminal] rest := by
  have parted : Parted .operator (' ' :: rest) := by
    intro char member
    cases member
    rfl
  have blank : Scans (' ' :: rest) [] rest := Scans.blank (by decide) (.refl rest)
  cases operator <;> exact Scans.token (.symbol rfl) parted blank

theorem scans_word {text : String} {rest : List Char} (word : isWord text.toList = true)
    (ends : EndsWord rest) :
    Scans (text.toList ++ rest) [⟨TokenKind.ofWord text, text⟩] rest := by
  have parted : Parted (TokenKind.ofWord text) rest := by
    intro char member
    rw [goesOn_ofWord]
    exact ends char member
  have scans := Scans.token (.ofWord word) parted (.refl rest)
  rwa [String.ofList_toList] at scans

theorem scans_numeral {text : String} {rest : List Char} (nonempty : text.toList ≠ [])
    (digits : ∀ char ∈ text.toList, char.isDigit = true) (ends : EndsWord rest) :
    Scans (text.toList ++ rest) [⟨.number, text⟩] rest := by
  have parted : Parted .number rest := by
    intro char member
    exact isDigit_eq_false_of_isWordPart (ends char member)
  have scans := Scans.token (.number nonempty digits) parted (.refl rest)
  rwa [String.ofList_toList] at scans

/-- The quote that a literal is written with. -/
theorem quoteLiteral_toList (value : String) :
    ∃ quote, isQuote quote = true ∧
      (quoteLiteral value).toList = quote :: (value.toList ++ [quote]) ∧
      ((Expression.string value).isWellFormed = true → quote ∉ value.toList) := by
  by_cases double : '"' ∈ value.toList
  · refine ⟨'\'', by decide, by simp [quoteLiteral, double], ?_⟩
    intro wellFormed
    simpa [Expression.isWellFormed, double] using wellFormed
  · exact ⟨'"', by decide, by simp [quoteLiteral, double], fun _ => double⟩

theorem unquote_quoteLiteral (value : String) : unquote (quoteLiteral value) = value := by
  obtain ⟨quote, -, text, -⟩ := quoteLiteral_toList value
  rw [unquote, text, List.tail_cons, List.dropLast_concat, String.ofList_toList]

theorem scans_literal {value : String} (rest : List Char)
    (wellFormed : (Expression.string value).isWellFormed = true) :
    Scans ((quoteLiteral value).toList ++ rest) [⟨.string, quoteLiteral value⟩] rest := by
  obtain ⟨quote, isQuote, text, free⟩ := quoteLiteral_toList value
  have spells : Spells .string (quoteLiteral value).toList := by
    rw [text]
    exact .string isQuote (free wellFormed)
  have parted : Parted .string rest := fun _ _ => rfl
  have scans := Scans.token spells parted (.refl rest)
  rwa [String.ofList_toList] at scans

/-- The tokens of source text. -/
def sourceLexis : Lexis Symbol where
  word text := ⟨TokenKind.ofWord text, text⟩
  numeral text := ⟨.number, text⟩
  mark char := ⟨(TokenKind.symbol? char).getD .colon, String.ofList [char]⟩
  operator := Operator.terminal
  quoted value := ⟨.string, quoteLiteral value⟩
  marks := ['(', ')', '\x7b', '\x7d', ';', ':', ',', '=']
  literal := quoteLiteral
  Scans := Scans
  refl := .refl
  trans := .trans
  scans_blank rest blank := .blank blank (.refl rest)
  scans_mark := by
    intro char rest member
    simp only [List.mem_cons, List.not_mem_nil, or_false] at member
    rcases member with rfl | rfl | rfl | rfl | rfl | rfl | rfl | rfl <;>
      exact scans_symbol rfl rfl rest
  scans_operator := scans_operator
  scans_word := scans_word
  scans_numeral := scans_numeral
  scans_literal := scans_literal
  parentheses := by decide

theorem word_of_isName {name : String} (h : isName name = true) :
    isWord name.toList = true ∧ sourceLexis.word name = ⟨.identifier, name⟩ := by
  rw [isName, Bool.and_eq_true, Bool.not_eq_true'] at h
  refine ⟨h.1, ?_⟩
  show Symbol.mk (TokenKind.ofWord name) name = ⟨.identifier, name⟩
  rw [ofWord_eq_identifier_iff.mpr h.2]

theorem word_of_typeNames {name : String} (h : typeNames.contains name = true) :
    isWord name.toList = true ∧ sourceLexis.word name = ⟨.typeKeyword, name⟩ := by
  rcases eq_of_typeNames h with rfl | rfl
  · exact ⟨by decide, rfl⟩
  · exact ⟨by decide, rfl⟩

/-! ## Phrases for expressions -/

/-- A phrase with the given symbols and tree. -/
def Derives {α β : Type} (symbols : α → List Symbol) (tree : α → β) (row : List Symbol)
    (value : β) : Prop :=
  ∃ phrase, symbols phrase = row ∧ tree phrase = value

theorem leaf_derives {expression : Expression} (leaf : expression.precedence = 255)
    (wellFormed : expression.isWellFormed = true) :
    Derives FactorPhrase.symbols FactorPhrase.tree (sourceLexis.tokens expression) expression := by
  cases expression with
  | binary operator left right => cases operator <;> cases leaf
  | identifier name =>
    refine ⟨.literal (.identifier ⟨name⟩), ?_, rfl⟩
    rw [Lexis.tokens, (word_of_isName wellFormed).2]
    rfl
  | number value =>
    obtain ⟨-, -, read⟩ := numeral_of_isWellFormed wellFormed
    refine ⟨.literal (.number ⟨value.numeral .plain⟩), rfl, ?_⟩
    rw [FactorPhrase.tree, LiteralPhrase.tree, nearestNumber, read, Option.getD_some]
  | string value =>
    refine ⟨.literal (.string ⟨quoteLiteral value⟩), rfl, ?_⟩
    rw [FactorPhrase.tree, LiteralPhrase.tree, unquote_quoteLiteral]

theorem parentheses_derives {row : List Symbol} {expression : Expression}
    (h : Derives ExpressionPhrase.symbols ExpressionPhrase.tree row expression) :
    Derives FactorPhrase.symbols FactorPhrase.tree
      (sourceLexis.mark '(' :: (row ++ [sourceLexis.mark ')'])) expression := by
  obtain ⟨phrase, rfl, rfl⟩ := h
  exact ⟨.parentheses ⟨"("⟩ phrase ⟨")"⟩, rfl, rfl⟩

theorem term_derives {row : List Symbol} {expression : Expression}
    (h : Derives FactorPhrase.symbols FactorPhrase.tree row expression) :
    Derives TermPhrase.symbols TermPhrase.tree row expression := by
  obtain ⟨factor, rfl, rfl⟩ := h
  exact ⟨.mk factor [], List.append_nil _, rfl⟩

theorem sum_derives {row : List Symbol} {expression : Expression}
    (h : Derives TermPhrase.symbols TermPhrase.tree row expression) :
    Derives ExpressionPhrase.symbols ExpressionPhrase.tree row expression := by
  obtain ⟨term, rfl, rfl⟩ := h
  exact ⟨.mk term [], List.append_nil _, rfl⟩

theorem joinedSymbols_concat {operators : List Operator} {α : Type} (symbols : α → List Symbol)
    (rest : List (Joined operators α)) (link : Joined operators α) :
    joinedSymbols symbols (rest ++ [link]) =
      joinedSymbols symbols rest ++ link.operator.terminal :: symbols link.operand := by
  simp [joinedSymbols]

theorem joinedTree_concat {operators : List Operator} {α : Type} (tree : α → Expression)
    (left : Expression) (rest : List (Joined operators α)) (link : Joined operators α) :
    joinedTree tree left (rest ++ [link]) =
      .binary link.operator (joinedTree tree left rest) (tree link.operand) := by
  simp [joinedTree]

theorem joined_term_derives {operator : Operator} {row row' : List Symbol}
    {left right : Expression} (allowed : operator ∈ productOperators)
    (h : Derives TermPhrase.symbols TermPhrase.tree row left)
    (h' : Derives FactorPhrase.symbols FactorPhrase.tree row' right) :
    Derives TermPhrase.symbols TermPhrase.tree (row ++ operator.terminal :: row')
      (.binary operator left right) := by
  obtain ⟨⟨first, rest⟩, rfl, rfl⟩ := h
  obtain ⟨factor, rfl, rfl⟩ := h'
  refine ⟨.mk first (rest ++ [⟨operator, allowed, factor⟩]), ?_, ?_⟩
  · rw [TermPhrase.symbols_mk, joinedSymbols_concat, ← List.append_assoc, ← TermPhrase.symbols_mk]
  · rw [TermPhrase.tree_mk, joinedTree_concat, ← TermPhrase.tree_mk]

theorem joined_sum_derives {operator : Operator} {row row' : List Symbol}
    {left right : Expression} (allowed : operator ∈ sumOperators)
    (h : Derives ExpressionPhrase.symbols ExpressionPhrase.tree row left)
    (h' : Derives TermPhrase.symbols TermPhrase.tree row' right) :
    Derives ExpressionPhrase.symbols ExpressionPhrase.tree (row ++ operator.terminal :: row')
      (.binary operator left right) := by
  obtain ⟨⟨first, rest⟩, rfl, rfl⟩ := h
  obtain ⟨term, rfl, rfl⟩ := h'
  refine ⟨.mk first (rest ++ [⟨operator, allowed, term⟩]), ?_, ?_⟩
  · rw [ExpressionPhrase.symbols_mk, joinedSymbols_concat, ← List.append_assoc,
      ← ExpressionPhrase.symbols_mk]
  · rw [ExpressionPhrase.tree_mk, joinedTree_concat, ← ExpressionPhrase.tree_mk]

/-- The rules of the grammar for expressions. -/
def sourceRules : ExpressionRules sourceLexis where
  Factor := Derives FactorPhrase.symbols FactorPhrase.tree
  Term := Derives TermPhrase.symbols TermPhrase.tree
  Sum := Derives ExpressionPhrase.symbols ExpressionPhrase.tree
  leaf := leaf_derives
  parenthesized := parentheses_derives
  term_of_factor := term_derives
  sum_of_term := sum_derives
  product := joined_term_derives
  sum := joined_sum_derives

/-- The numbers in the text of a well-formed expression are finite. -/
theorem inRange_of_mem_tokens {expression : Expression}
    (wellFormed : expression.isWellFormed = true) :
    ∀ symbol ∈ sourceLexis.tokens expression, symbol.InRange := by
  have mark_inRange {row : List Symbol} (h : ∀ symbol ∈ row, symbol.InRange) (bracket : Bool) :
      ∀ symbol ∈ sourceLexis.group bracket row, symbol.InRange := by
    cases bracket with
    | false => exact h
    | true =>
      rw [Lexis.group, if_pos rfl, List.forall_mem_cons, List.forall_mem_append,
        List.forall_mem_singleton]
      exact ⟨Symbol.inRange_of_kind (by decide), h, Symbol.inRange_of_kind (by decide)⟩
  induction expression with
  | binary operator left right ihLeft ihRight =>
    rw [Expression.isWellFormed, Bool.and_eq_true] at wellFormed
    rw [Lexis.tokens, List.forall_mem_append, List.forall_mem_cons]
    exact ⟨mark_inRange (ihLeft wellFormed.1) _,
      Symbol.inRange_of_kind (TokenKind.noConfusion : TokenKind.operator ≠ .number),
      mark_inRange (ihRight wellFormed.2) _⟩
  | identifier name =>
    rw [Lexis.tokens, (word_of_isName wellFormed).2, List.forall_mem_singleton]
    exact Symbol.inRange_of_kind (by simp)
  | number value =>
    obtain ⟨-, -, read⟩ := numeral_of_isWellFormed wellFormed
    rw [Lexis.tokens, List.forall_mem_singleton]
    exact fun _ => ⟨value, read⟩
  | string value =>
    rw [Lexis.tokens, List.forall_mem_singleton]
    exact Symbol.inRange_of_kind (by simp [sourceLexis])

/-! ## Rows of symbols for statements -/

theorem complete_margin (depth : Nat) : sourceLexis.Complete (margin depth).toList [] := by
  apply Lexis.complete_blanks
  intro char member
  rw [margin, String.toList_ofList] at member
  rw [List.eq_of_mem_replicate member]
  decide

theorem complete_keyword {word : String} (h : isWord word.toList = true) :
    sourceLexis.Complete (word.toList ++ [' ']) [⟨TokenKind.ofWord word, word⟩] :=
  (Lexis.writes_word h).append Lexis.complete_space rfl

theorem complete_let : sourceLexis.Complete "let ".toList [⟨.varKeyword, "let"⟩] :=
  complete_keyword (by decide : isWord "let".toList = true)

theorem complete_colon : sourceLexis.Complete ": ".toList [⟨.colon, ":"⟩] :=
  (Lexis.complete_mark ':' (by decide)).append Lexis.complete_space

theorem complete_assign : sourceLexis.Complete " = ".toList [⟨.assign, "="⟩] :=
  (Lexis.complete_space.append (Lexis.complete_mark '=' (by decide))).append Lexis.complete_space

theorem complete_semicolon : sourceLexis.Complete ";\n".toList [⟨.semicolon, ";"⟩] :=
  (Lexis.complete_mark ';' (by decide)).append Lexis.complete_newline

theorem complete_lBrace : sourceLexis.Complete " \x7b\n".toList [⟨.lBrace, "\x7b"⟩] :=
  (Lexis.complete_space.append (Lexis.complete_mark '\x7b' (by decide))).append
    Lexis.complete_newline

theorem complete_rBrace : sourceLexis.Complete "\x7d\n".toList [⟨.rBrace, "\x7d"⟩] :=
  (Lexis.complete_mark '\x7d' (by decide)).append Lexis.complete_newline

/-- The phrase of a parameter. -/
def Parameter.phrase (parameter : Parameter) : ParameterPhrase :=
  ⟨⟨parameter.name⟩, ⟨":"⟩, ⟨parameter.typeName⟩⟩

/-- The phrase of the parameters of a function. -/
def parametersPhrase : List Parameter → Option ParametersPhrase
  | [] => none
  | first :: rest => some ⟨first.phrase, rest.map fun parameter => (⟨","⟩, parameter.phrase)⟩

theorem parametersPhrase_tree (parameters : List Parameter) :
    (parametersPhrase parameters).elim [] ParametersPhrase.tree = parameters := by
  cases parameters with
  | nil => rfl
  | cons first rest =>
    rw [parametersPhrase, Option.elim_some, ParametersPhrase.tree, List.map_map]
    exact congrArg (first :: ·) (List.map_id rest)

theorem parametersPhrase_symbols (parameters : List Parameter) :
    (parametersPhrase parameters).elim [] ParametersPhrase.symbols =
      [⟨.comma, ","⟩].intercalate (parameters.map fun parameter => parameter.phrase.symbols) := by
  cases parameters with
  | nil => rfl
  | cons first rest =>
    rw [parametersPhrase, Option.elim_some, ParametersPhrase.symbols]
    induction rest generalizing first with
    | nil => simp [moreSymbols]
    | cons next rest ih =>
      have later := ih next
      simp only [List.map_cons] at later ⊢
      rw [List.intercalate_cons_cons, ← later]
      simp [moreSymbols, Terminal.symbol]

theorem writes_parameter {parameter : Parameter} (wellFormed : parameter.isWellFormed = true) :
    sourceLexis.Writes parameter.print.toList parameter.phrase.symbols := by
  rw [Parameter.isWellFormed, Bool.and_eq_true] at wellFormed
  obtain ⟨nameWord, nameSymbol⟩ := word_of_isName wellFormed.1
  obtain ⟨typeWord, typeSymbol⟩ := word_of_typeNames wellFormed.2
  have named := (Lexis.writes_word nameWord).append complete_colon rfl
  have whole := named.append_writes (Lexis.writes_word typeWord)
  rw [nameSymbol, typeSymbol] at whole
  simp only [Parameter.print, String.toList_append]
  exact whole

theorem writes_parameters {parameters : List Parameter}
    (wellFormed : parameters.all Parameter.isWellFormed = true) :
    sourceLexis.Writes (String.intercalate ", " (parameters.map Parameter.print)).toList
      ((parametersPhrase parameters).elim [] ParametersPhrase.symbols) := by
  have comma : sourceLexis.Complete ", ".toList [⟨.comma, ","⟩] :=
    (Lexis.complete_mark ',' (by decide)).append Lexis.complete_space
  rw [String.toList_intercalate, List.map_map, parametersPhrase_symbols]
  apply Lexis.writes_intercalate comma rfl
  intro parameter member
  exact writes_parameter (List.all_eq_true.mp wellFormed parameter member)

/-- The symbols of a function, given those of its body. -/
def functionRow (name : String) (parameters : List Parameter) (returnType : String)
    (inner : List Symbol) : List Symbol :=
  [⟨.functionKeyword, "function"⟩, ⟨.identifier, name⟩, ⟨.lParen, "("⟩] ++
    (parametersPhrase parameters).elim [] ParametersPhrase.symbols ++
    [⟨.rParen, ")"⟩, ⟨.colon, ":"⟩, ⟨.typeKeyword, returnType⟩] ++ [⟨.lBrace, "\x7b"⟩] ++ inner ++
    [⟨.rBrace, "\x7d"⟩]

mutual

/-- The symbols of a statement in canonical text. -/
def Statement.row : Statement → List Symbol
  | .variableDeclaration name typeName value =>
    [⟨.varKeyword, "let"⟩, ⟨.identifier, name⟩, ⟨.colon, ":"⟩, ⟨.typeKeyword, typeName⟩,
      ⟨.assign, "="⟩] ++ sourceLexis.tokens value ++ [⟨.semicolon, ";"⟩]
  | .functionDeclaration name parameters returnType body =>
    functionRow name parameters returnType (Statement.rows body)
  | .returnStatement argument =>
    [⟨.returnKeyword, "return"⟩] ++ argument.elim [] sourceLexis.tokens ++ [⟨.semicolon, ";"⟩]

/-- The symbols of statements in canonical text. -/
def Statement.rows : List Statement → List Symbol
  | [] => []
  | statement :: body => statement.row ++ Statement.rows body

end

theorem complete_variable (depth : Nat) {name typeName : String} {value : Expression}
    (wellFormed : (Statement.variableDeclaration name typeName value).isWellFormed = true) :
    sourceLexis.Complete ((Statement.variableDeclaration name typeName value).print depth).toList
      (Statement.variableDeclaration name typeName value).row := by
  simp only [Statement.isWellFormed, Bool.and_eq_true] at wellFormed
  obtain ⟨⟨isName, isType⟩, valueWellFormed⟩ := wellFormed
  obtain ⟨nameWord, nameSymbol⟩ := word_of_isName isName
  obtain ⟨typeWord, typeSymbol⟩ := word_of_typeNames isType
  have named := ((complete_margin depth).append complete_let).append_writes
    (Lexis.writes_word nameWord)
  have typed := (named.append complete_colon rfl).append_writes (Lexis.writes_word typeWord)
  have valued := (typed.append complete_assign rfl).append_writes
    (Lexis.writes_render value valueWellFormed)
  have whole := valued.append complete_semicolon rfl
  rw [nameSymbol, typeSymbol] at whole
  simp only [Statement.print, Expression.print_eq_render, String.toList_append, Statement.row]
  exact whole

theorem complete_return (depth : Nat) {argument : Option Expression}
    (wellFormed : (Statement.returnStatement argument).isWellFormed = true) :
    sourceLexis.Complete ((Statement.returnStatement argument).print depth).toList
      (Statement.returnStatement argument).row := by
  cases argument with
  | none =>
    have keyword := (Lexis.writes_word (by decide : isWord "return".toList = true)).append
      complete_semicolon rfl
    have whole := (complete_margin depth).append keyword
    simp only [Statement.print, String.toList_append, Statement.row]
    exact whole
  | some argument =>
    have keyword := (complete_margin depth).append
      (complete_keyword (by decide : isWord "return".toList = true))
    have valued := keyword.append_writes (Lexis.writes_render argument wellFormed)
    have whole := valued.append complete_semicolon rfl
    simp only [Statement.print, Expression.print_eq_render, String.toList_append, Statement.row]
    exact whole

theorem complete_function (depth : Nat) {name returnType : String} {parameters : List Parameter}
    {body : List Statement} (isFunctionName : isName name = true)
    (parametersWellFormed : parameters.all Parameter.isWellFormed = true)
    (isReturnType : typeNames.contains returnType = true) {row : List Symbol}
    (inner : sourceLexis.Complete (Statement.printAll (depth + 1) body).toList row) :
    sourceLexis.Complete
      ((Statement.functionDeclaration name parameters returnType body).print depth).toList
      (functionRow name parameters returnType row) := by
  obtain ⟨nameWord, nameSymbol⟩ := word_of_isName isFunctionName
  obtain ⟨typeWord, typeSymbol⟩ := word_of_typeNames isReturnType
  have keyword := (complete_margin depth).append
    (complete_keyword (by decide : isWord "function".toList = true))
  have named := (keyword.append_writes (Lexis.writes_word nameWord)).append
    (Lexis.complete_mark '(' (by decide)) rfl
  have listed := (named.append_writes (writes_parameters parametersWellFormed)).append
    ((Lexis.complete_mark ')' (by decide)).append complete_colon) rfl
  have typed := (listed.append_writes (Lexis.writes_word typeWord)).append complete_lBrace rfl
  have whole := ((typed.append inner).append (complete_margin depth)).append complete_rBrace
  rw [nameSymbol, typeSymbol] at whole
  simp only [Statement.print, String.toList_append]
  refine (congrArg (sourceLexis.Complete _) ?_).mp whole
  simp only [functionRow, List.append_assoc]
  rfl

mutual

/-- The canonical text of a statement is taken apart into its row of symbols. -/
theorem Statement.complete_print : (statement : Statement) → (depth : Nat) →
    statement.isWellFormed = true →
    sourceLexis.Complete (statement.print depth).toList statement.row
  | .variableDeclaration _ _ _, depth, wellFormed => complete_variable depth wellFormed
  | .functionDeclaration name parameters returnType body, depth, wellFormed => by
    simp only [Statement.isWellFormed, Bool.and_eq_true] at wellFormed
    obtain ⟨⟨⟨isFunctionName, parametersWellFormed⟩, isReturnType⟩, inner⟩ := wellFormed
    exact complete_function depth isFunctionName parametersWellFormed isReturnType
      (Statement.complete_printAll body (depth + 1) inner)
  | .returnStatement _, depth, wellFormed => complete_return depth wellFormed

theorem Statement.complete_printAll : (body : List Statement) → (depth : Nat) →
    Statement.allWellFormed body = true →
    sourceLexis.Complete (Statement.printAll depth body).toList (Statement.rows body)
  | [], _, _ => Lexis.complete_empty
  | statement :: body, depth, wellFormed => by
    rw [Statement.allWellFormed, Bool.and_eq_true] at wellFormed
    rw [Statement.printAll, String.toList_append, Statement.rows]
    exact (Statement.complete_print statement depth wellFormed.1).append
      (Statement.complete_printAll body depth wellFormed.2)

end

/-! ## Phrases for statements -/

/-- A text is taken apart into the symbols of a phrase, which has no number beyond the finite
    ones and the given tree. -/
def Prints {α β : Type} (symbols : α → List Symbol) (tree : α → β) (text : String) (value : β) :
    Prop :=
  ∃ phrase, tree phrase = value ∧ (∀ symbol ∈ symbols phrase, symbol.InRange) ∧
    sourceLexis.Complete text.toList (symbols phrase)

theorem Terminal.inRange {kind : TokenKind} (h : kind ≠ .number) (terminal : Terminal kind) :
    terminal.symbol.InRange :=
  Symbol.inRange_of_kind h

theorem prints_variable (depth : Nat) {name typeName : String} {value : Expression}
    (wellFormed : (Statement.variableDeclaration name typeName value).isWellFormed = true) :
    Prints StatementPhrase.symbols StatementPhrase.tree
      ((Statement.variableDeclaration name typeName value).print depth)
      (.variableDeclaration name typeName value) := by
  have complete := complete_variable depth wellFormed
  simp only [Statement.isWellFormed, Bool.and_eq_true] at wellFormed
  obtain ⟨phrase, row, tree⟩ := (sourceRules.reads value wellFormed.2).sum
  have numbers := inRange_of_mem_tokens wellFormed.2
  rw [Statement.row, ← row] at complete
  rw [← row] at numbers
  refine ⟨.variableDeclaration ⟨⟨"let"⟩, ⟨name⟩, ⟨":"⟩, ⟨typeName⟩, ⟨"="⟩, phrase, ⟨";"⟩⟩, ?_, ?_,
    complete⟩
  · rw [StatementPhrase.tree, VariablePhrase.tree, tree]
  · simp (disch := decide) only [StatementPhrase.symbols, VariablePhrase.symbols,
      List.forall_mem_append, List.forall_mem_cons, Terminal.inRange, true_and]
    exact ⟨⟨List.forall_mem_nil _, numbers⟩, List.forall_mem_nil _⟩

theorem prints_return_value (depth : Nat) {argument : Expression}
    (wellFormed : argument.isWellFormed = true) :
    Prints StatementPhrase.symbols StatementPhrase.tree
      ((Statement.returnStatement (some argument)).print depth)
      (.returnStatement (some argument)) := by
  have complete := @complete_return depth (some argument) wellFormed
  obtain ⟨phrase, row, tree⟩ := (sourceRules.reads argument wellFormed).sum
  have numbers := inRange_of_mem_tokens wellFormed
  rw [Statement.row, Option.elim_some, ← row] at complete
  rw [← row] at numbers
  refine ⟨.returnStatement ⟨⟨"return"⟩, some phrase, ⟨";"⟩⟩, ?_, ?_, complete⟩
  · rw [StatementPhrase.tree, ReturnPhrase.tree, Option.map_some, tree]
  · simp (disch := decide) only [StatementPhrase.symbols, ReturnPhrase.symbols, Option.elim_some,
      List.forall_mem_append, List.forall_mem_cons, Terminal.inRange, true_and]
    exact ⟨⟨List.forall_mem_nil _, numbers⟩, List.forall_mem_nil _⟩

theorem prints_return (depth : Nat) :
    Prints StatementPhrase.symbols StatementPhrase.tree
      ((Statement.returnStatement none).print depth) (.returnStatement none) := by
  refine ⟨.returnStatement ⟨⟨"return"⟩, none, ⟨";"⟩⟩, rfl, ?_,
    @complete_return depth none rfl⟩
  simp (disch := decide) only [StatementPhrase.symbols, ReturnPhrase.symbols, Option.elim_none,
    List.forall_mem_append, List.forall_mem_cons, Terminal.inRange, true_and]
  exact ⟨⟨List.forall_mem_nil _, List.forall_mem_nil _⟩, List.forall_mem_nil _⟩

theorem ParameterPhrase.inRange (phrase : ParameterPhrase) :
    ∀ symbol ∈ phrase.symbols, symbol.InRange := by
  simp (disch := decide) only [ParameterPhrase.symbols, List.forall_mem_cons, Terminal.inRange,
    true_and]
  exact List.forall_mem_nil _

theorem ParametersPhrase.inRange (phrase : ParametersPhrase) :
    ∀ symbol ∈ phrase.symbols, symbol.InRange := by
  rw [ParametersPhrase.symbols, List.forall_mem_append]
  refine ⟨phrase.first.inRange, ?_⟩
  intro symbol member
  obtain ⟨⟨comma, parameter⟩, -, inside⟩ := List.mem_flatMap.mp member
  rcases List.mem_cons.mp inside with rfl | inside
  · exact comma.inRange (by decide)
  · exact parameter.inRange symbol inside

theorem prints_function (depth : Nat) {name returnType : String} {parameters : List Parameter}
    {body : List Statement} (isFunctionName : isName name = true)
    (parametersWellFormed : parameters.all Parameter.isWellFormed = true)
    (isReturnType : typeNames.contains returnType = true)
    (inner : Prints StatementPhrase.bodySymbols StatementPhrase.bodyTree
      (Statement.printAll (depth + 1) body) body) :
    Prints StatementPhrase.symbols StatementPhrase.tree
      ((Statement.functionDeclaration name parameters returnType body).print depth)
      (.functionDeclaration name parameters returnType body) := by
  obtain ⟨phrases, tree, numbers, complete⟩ := inner
  refine ⟨.functionDeclaration ⟨⟨"function"⟩, ⟨name⟩, ⟨"("⟩, parametersPhrase parameters, ⟨")"⟩,
    ⟨":"⟩, ⟨returnType⟩⟩ ⟨"\x7b"⟩ phrases ⟨"\x7d"⟩, ?_, ?_,
    complete_function depth isFunctionName parametersWellFormed isReturnType complete⟩
  · rw [StatementPhrase.tree, SignaturePhrase.tree, tree, parametersPhrase_tree]
  · have inside : ∀ symbol ∈ (parametersPhrase parameters).elim [] ParametersPhrase.symbols,
        symbol.InRange := by
      cases parametersPhrase parameters with
      | none => exact List.forall_mem_nil _
      | some phrase => exact phrase.inRange
    simp (disch := decide) only [StatementPhrase.symbols, SignaturePhrase.symbols,
      List.forall_mem_append, List.forall_mem_cons, Terminal.inRange, true_and]
    exact ⟨⟨⟨⟨⟨List.forall_mem_nil _, inside⟩, List.forall_mem_nil _⟩, List.forall_mem_nil _⟩,
      numbers⟩, List.forall_mem_nil _⟩

mutual

theorem Statement.prints : (statement : Statement) → (depth : Nat) →
    statement.isWellFormed = true →
    Prints StatementPhrase.symbols StatementPhrase.tree (statement.print depth) statement
  | .variableDeclaration _ _ _, depth, wellFormed => prints_variable depth wellFormed
  | .functionDeclaration name parameters returnType body, depth, wellFormed => by
    simp only [Statement.isWellFormed, Bool.and_eq_true] at wellFormed
    obtain ⟨⟨⟨isFunctionName, parametersWellFormed⟩, isReturnType⟩, inner⟩ := wellFormed
    exact prints_function depth isFunctionName parametersWellFormed isReturnType
      (Statement.printsAll body (depth + 1) inner)
  | .returnStatement (some _), depth, wellFormed => prints_return_value depth wellFormed
  | .returnStatement none, depth, _ => prints_return depth

theorem Statement.printsAll : (body : List Statement) → (depth : Nat) →
    Statement.allWellFormed body = true →
    Prints StatementPhrase.bodySymbols StatementPhrase.bodyTree (Statement.printAll depth body) body
  | [], _, _ => ⟨[], rfl, List.forall_mem_nil _, Lexis.complete_empty⟩
  | statement :: body, depth, wellFormed => by
    rw [Statement.allWellFormed, Bool.and_eq_true] at wellFormed
    obtain ⟨phrase, tree, numbers, complete⟩ := Statement.prints statement depth wellFormed.1
    obtain ⟨phrases, trees, more, completeAll⟩ := Statement.printsAll body depth wellFormed.2
    refine ⟨phrase :: phrases, ?_, ?_, ?_⟩
    · rw [StatementPhrase.bodyTree, tree, trees]
    · rw [StatementPhrase.bodySymbols, List.forall_mem_append]
      exact ⟨numbers, more⟩
    · rw [Statement.printAll, String.toList_append]
      exact complete.append completeAll

end

/-! ## Programs -/

/-- The canonical text of a well-formed program is read as the program. -/
theorem Program.parse_print {program : Program} (wellFormed : program.isWellFormed = true) :
    Program.parse program.print = .ok program := by
  obtain ⟨phrases, tree, numbers, complete⟩ := Statement.printsAll program.body 0 wellFormed
  have scans : Scans program.print.toList (StatementPhrase.bodySymbols phrases) [] := by
    have whole := complete []
    rwa [List.append_nil] at whole
  obtain ⟨tokens, tokenized, symbols⟩ := scans.tokenize
  refine Program.parse_eq_ok_iff_phrase.mpr ⟨tokens, ⟨phrases⟩, tokenized, symbols.symm, ?_, ?_⟩
  · intro token member
    apply numbers
    rw [← symbols]
    exact List.mem_map_of_mem member
  · rw [ProgramPhrase.tree, tree]

/-- Printing and reading restores every program that is read from a text, and printing again gives
    the same text. -/
theorem Program.parse_print_of_parse {source : String} {program : Program}
    (h : Program.parse source = .ok program) :
    Program.parse program.print = .ok program ∧
      (Program.parse program.print).map Program.print = .ok program.print := by
  have again := Program.parse_print (Program.isWellFormed_of_parse h)
  refine ⟨again, ?_⟩
  rw [again]
  rfl

/-- Both quotes, a comment, a function and parentheses of either need. -/
theorem Program.parse_print_of_parse_mixed :
    ∃ program,
      Program.parse
      "function f(a: string): string \x7b /* - */ return 'x\"' + (a - (b - c)) * (\"it's\"); \x7d" =
        .ok program ∧
      Program.parse program.print = .ok program ∧
      (Program.parse program.print).map Program.print = .ok program.print := by
  have read : Program.parse
      "function f(a: string): string \x7b /* - */ return 'x\"' + (a - (b - c)) * (\"it's\"); \x7d" =
      .ok ⟨[.functionDeclaration "f" [⟨"a", "string"⟩] "string" [.returnStatement (some
        (.binary .add (.string "x\"") (.binary .mul (.binary .sub (.identifier "a")
          (.binary .sub (.identifier "b") (.identifier "c"))) (.string "it's"))))]]⟩ := by
    cbv
  exact ⟨_, read, Program.parse_print_of_parse read⟩

/-- Reading the canonical text of a tree restores the tree exactly if the tree is well-formed. -/
theorem Program.parse_print_eq_ok_iff (program : Program) :
    Program.parse program.print = .ok program ↔ program.isWellFormed = true := by
  constructor
  · intro read
    exact Program.isWellFormed_of_parse read
  · intro wellFormed
    exact Program.parse_print wellFormed

end TinyScript
