import TinyScript.Program.Parser

/-!
# Phrases of the grammar

A phrase is a derivation of one rule of the grammar, as data: alternatives are constructors, an
optional part is an `Option`, a repetition is a `List`, and the leaves are terminals. Each phrase
has the symbols that it derives and the tree that it stands for. In the tree, the repetitions of
expressions and terms group to the left, parentheses leave no node, and a string is the text between
its quotes.

The grammar sees the kind and the text of a token, but not its position.
-/

namespace TinyScript

/-- What the grammar sees of a token. -/
structure Symbol where
  kind : TokenKind
  text : String
  deriving DecidableEq, Repr

/-- A token without its position. -/
def Token.symbol (token : Token) : Symbol :=
  ⟨token.kind, token.text⟩

/-- The symbol that an operator is written with. -/
def Operator.terminal (operator : Operator) : Symbol :=
  ⟨.operator, operator.symbol⟩

/-- Whether a symbol is no number beyond the finite ones. -/
def Symbol.InRange (symbol : Symbol) : Prop :=
  symbol.kind = .number → ∃ value, Binary64.ofDigits? symbol.text.toList = some value

/-- A leaf of a derivation: a symbol of a fixed kind. -/
@[ext]
structure Terminal (kind : TokenKind) where
  text : String
  deriving DecidableEq, Repr

/-- The symbol at a leaf. -/
def Terminal.symbol {kind : TokenKind} (terminal : Terminal kind) : Symbol :=
  ⟨kind, terminal.text⟩

/-- `Number | String | Identifier` -/
inductive LiteralPhrase where
  | number (numeral : Terminal .number)
  | string (quoted : Terminal .string)
  | identifier (name : Terminal .identifier)

/-- An operand behind one of the given operators. -/
structure Joined (operators : List Operator) (α : Type) where
  operator : Operator
  allowed : operator ∈ operators
  operand : α

/-- The symbols of operands behind their operators. -/
def joinedSymbols {operators : List Operator} {α : Type} (symbols : α → List Symbol)
    (rest : List (Joined operators α)) : List Symbol :=
  rest.flatMap fun link => link.operator.terminal :: symbols link.operand

/-- An expression with operands joined to it, grouped to the left. -/
def joinedTree {operators : List Operator} {α : Type} (tree : α → Expression) (left : Expression)
    (rest : List (Joined operators α)) : Expression :=
  rest.foldl (fun left link => .binary link.operator left (tree link.operand)) left

/-- The operators between the terms of an expression. -/
abbrev sumOperators : List Operator := [.add, .sub]

/-- The operators between the factors of a term. -/
abbrev productOperators : List Operator := [.mul, .div]

mutual

/-- `Term (('+' | '-') Term)*` -/
inductive ExpressionPhrase where
  | mk (first : TermPhrase) (rest : List (Joined sumOperators TermPhrase))

/-- `Factor (('*' | '/') Factor)*` -/
inductive TermPhrase where
  | mk (first : FactorPhrase) (rest : List (Joined productOperators FactorPhrase))

/-- `'(' Expression ')' | Literal` -/
inductive FactorPhrase where
  | parentheses (left : Terminal .lParen) (inner : ExpressionPhrase) (right : Terminal .rParen)
  | literal (literal : LiteralPhrase)

end

/-- `VarKeyword Identifier ':' TypeKeyword '=' Expression ';'` -/
structure VariablePhrase where
  keyword : Terminal .varKeyword
  name : Terminal .identifier
  colon : Terminal .colon
  typeName : Terminal .typeKeyword
  assign : Terminal .assign
  value : ExpressionPhrase
  semicolon : Terminal .semicolon

/-- `Identifier ':' TypeKeyword` -/
structure ParameterPhrase where
  name : Terminal .identifier
  colon : Terminal .colon
  typeName : Terminal .typeKeyword

/-- `Parameter (',' Parameter)*` -/
structure ParametersPhrase where
  first : ParameterPhrase
  rest : List (Terminal .comma × ParameterPhrase)

/-- `'function' Identifier '(' Parameters? ')' ':' TypeKeyword`: a function up to its body. -/
structure SignaturePhrase where
  keyword : Terminal .functionKeyword
  name : Terminal .identifier
  left : Terminal .lParen
  parameters : Option ParametersPhrase
  right : Terminal .rParen
  colon : Terminal .colon
  returnType : Terminal .typeKeyword

/-- `'return' Expression? ';'` -/
structure ReturnPhrase where
  keyword : Terminal .returnKeyword
  argument : Option ExpressionPhrase
  semicolon : Terminal .semicolon

/-- `VariableDeclaration | FunctionDeclaration | ReturnStatement` -/
inductive StatementPhrase where
  | variableDeclaration (phrase : VariablePhrase)
  | functionDeclaration (signature : SignaturePhrase) (left : Terminal .lBrace)
      (body : List StatementPhrase) (right : Terminal .rBrace)
  | returnStatement (phrase : ReturnPhrase)

/-- `Statement*` -/
structure ProgramPhrase where
  statements : List StatementPhrase

/-! ## The symbols of a phrase -/

/-- The one symbol of a literal. -/
def LiteralPhrase.symbol : LiteralPhrase → Symbol
  | number numeral => numeral.symbol
  | string quoted => quoted.symbol
  | identifier name => name.symbol

mutual

/-- The symbols of an expression. -/
def ExpressionPhrase.symbols : ExpressionPhrase → List Symbol
  | .mk first rest => first.symbols ++ ExpressionPhrase.restSymbols rest

/-- The symbols of further terms behind their operators. -/
def ExpressionPhrase.restSymbols : List (Joined sumOperators TermPhrase) → List Symbol
  | [] => []
  | ⟨operator, _, term⟩ :: rest =>
    operator.terminal :: term.symbols ++ ExpressionPhrase.restSymbols rest

/-- The symbols of a term. -/
def TermPhrase.symbols : TermPhrase → List Symbol
  | .mk first rest => first.symbols ++ TermPhrase.restSymbols rest

/-- The symbols of further factors behind their operators. -/
def TermPhrase.restSymbols : List (Joined productOperators FactorPhrase) → List Symbol
  | [] => []
  | ⟨operator, _, factor⟩ :: rest =>
    operator.terminal :: factor.symbols ++ TermPhrase.restSymbols rest

/-- The symbols of a factor, its parentheses among them. -/
def FactorPhrase.symbols : FactorPhrase → List Symbol
  | .parentheses left inner right => [left.symbol] ++ inner.symbols ++ [right.symbol]
  | .literal literal => [literal.symbol]

end

theorem ExpressionPhrase.symbols_mk (first : TermPhrase)
    (rest : List (Joined sumOperators TermPhrase)) :
    (ExpressionPhrase.mk first rest).symbols =
      first.symbols ++ joinedSymbols TermPhrase.symbols rest := by
  rw [ExpressionPhrase.symbols]
  congr 1
  induction rest with
  | nil => rfl
  | cons link rest ih => rw [ExpressionPhrase.restSymbols, ih]; rfl

theorem TermPhrase.symbols_mk (first : FactorPhrase)
    (rest : List (Joined productOperators FactorPhrase)) :
    (TermPhrase.mk first rest).symbols =
      first.symbols ++ joinedSymbols FactorPhrase.symbols rest := by
  rw [TermPhrase.symbols]
  congr 1
  induction rest with
  | nil => rfl
  | cons link rest ih => rw [TermPhrase.restSymbols, ih]; rfl

/-- The symbols of a variable declaration, from its keyword to its semicolon. -/
def VariablePhrase.symbols (phrase : VariablePhrase) : List Symbol :=
  [phrase.keyword.symbol, phrase.name.symbol, phrase.colon.symbol, phrase.typeName.symbol,
    phrase.assign.symbol] ++ phrase.value.symbols ++ [phrase.semicolon.symbol]

/-- The symbols of one parameter. -/
def ParameterPhrase.symbols (phrase : ParameterPhrase) : List Symbol :=
  [phrase.name.symbol, phrase.colon.symbol, phrase.typeName.symbol]

/-- The symbols of further parameters behind their commas. -/
def moreSymbols (more : List (Terminal .comma × ParameterPhrase)) : List Symbol :=
  more.flatMap fun (comma, parameter) => comma.symbol :: parameter.symbols

/-- The symbols of a list of parameters, its commas among them. -/
def ParametersPhrase.symbols (phrase : ParametersPhrase) : List Symbol :=
  phrase.first.symbols ++ moreSymbols phrase.rest

/-- The symbols of a function in front of its body. -/
def SignaturePhrase.symbols (phrase : SignaturePhrase) : List Symbol :=
  [phrase.keyword.symbol, phrase.name.symbol, phrase.left.symbol] ++
    phrase.parameters.elim [] ParametersPhrase.symbols ++
    [phrase.right.symbol, phrase.colon.symbol, phrase.returnType.symbol]

/-- The symbols of a return statement, from its keyword to its semicolon. -/
def ReturnPhrase.symbols (phrase : ReturnPhrase) : List Symbol :=
  [phrase.keyword.symbol] ++ phrase.argument.elim [] ExpressionPhrase.symbols ++
    [phrase.semicolon.symbol]

mutual

/-- The symbols of a statement, the braces of a body among them. -/
def StatementPhrase.symbols : StatementPhrase → List Symbol
  | .variableDeclaration phrase => phrase.symbols
  | .functionDeclaration signature left body right =>
    signature.symbols ++ [left.symbol] ++ StatementPhrase.bodySymbols body ++ [right.symbol]
  | .returnStatement phrase => phrase.symbols

/-- The symbols of statements one behind the other. -/
def StatementPhrase.bodySymbols : List StatementPhrase → List Symbol
  | [] => []
  | statement :: body => statement.symbols ++ StatementPhrase.bodySymbols body

end

/-- The symbols of a program. -/
def ProgramPhrase.symbols (phrase : ProgramPhrase) : List Symbol :=
  StatementPhrase.bodySymbols phrase.statements

/-! ## The first symbol of a phrase -/

/-- A row of symbols that starts with one of the given kinds. -/
def StartsIn (kinds : List TokenKind) (symbols : List Symbol) : Prop :=
  ∃ symbol rest, symbols = symbol :: rest ∧ symbol.kind ∈ kinds

theorem StartsIn.append {kinds : List TokenKind} {symbols : List Symbol}
    (h : StartsIn kinds symbols) (more : List Symbol) : StartsIn kinds (symbols ++ more) := by
  obtain ⟨symbol, rest, rfl, kind⟩ := h
  exact ⟨symbol, rest ++ more, rfl, kind⟩

theorem StartsIn.ne_nil {kinds : List TokenKind} {symbols : List Symbol}
    (h : StartsIn kinds symbols) : symbols ≠ [] := by
  obtain ⟨symbol, rest, rfl, -⟩ := h
  exact List.cons_ne_nil symbol rest

theorem StartsIn.ne_terminal {kinds : List TokenKind} {symbols : List Symbol}
    (h : StartsIn kinds symbols) {kind : TokenKind} (other : kind ∉ kinds)
    (terminal : Terminal kind) (rest : List Symbol) : symbols ≠ terminal.symbol :: rest := by
  obtain ⟨symbol, symbols, rfl, member⟩ := h
  intro same
  obtain ⟨rfl, -⟩ := List.cons.inj same
  exact other member

/-- The kinds of symbols that an expression may start with. -/
def operandKinds : List TokenKind := [.lParen, .number, .string, .identifier]

theorem FactorPhrase.startsIn (phrase : FactorPhrase) : StartsIn operandKinds phrase.symbols := by
  cases phrase with
  | parentheses left inner right =>
    exact ⟨left.symbol, _, rfl, by simp [Terminal.symbol, operandKinds]⟩
  | literal literal =>
    refine ⟨literal.symbol, [], rfl, ?_⟩
    cases literal <;> simp [LiteralPhrase.symbol, Terminal.symbol, operandKinds]

theorem TermPhrase.startsIn (phrase : TermPhrase) : StartsIn operandKinds phrase.symbols := by
  obtain ⟨first, rest⟩ := phrase
  rw [TermPhrase.symbols]
  exact first.startsIn.append _

theorem ExpressionPhrase.startsIn (phrase : ExpressionPhrase) :
    StartsIn operandKinds phrase.symbols := by
  obtain ⟨first, rest⟩ := phrase
  rw [ExpressionPhrase.symbols]
  exact first.startsIn.append _

/-- The kinds of symbols that a statement may start with. -/
def statementKinds : List TokenKind := [.varKeyword, .functionKeyword, .returnKeyword]

theorem StatementPhrase.startsIn (phrase : StatementPhrase) :
    StartsIn statementKinds phrase.symbols := by
  cases phrase with
  | variableDeclaration phrase =>
    exact ⟨phrase.keyword.symbol, _, rfl, by simp [Terminal.symbol, statementKinds]⟩
  | functionDeclaration signature left body right =>
    exact ⟨signature.keyword.symbol, _, rfl, by simp [Terminal.symbol, statementKinds]⟩
  | returnStatement phrase =>
    exact ⟨phrase.keyword.symbol, _, rfl, by simp [Terminal.symbol, statementKinds]⟩

/-! ## The tree of a phrase -/

/-- The number nearest to the one that a row of digits denotes. Symbols that are `InRange` have one;
    zero stands in for the others. -/
def nearestNumber (digits : String) : Binary64 :=
  (Binary64.ofDigits? digits.toList).getD .zero

/-- A text without its first and last character. -/
def unquote (text : String) : String :=
  String.ofList text.toList.tail.dropLast

/-- The leaf that a literal stands for. -/
def LiteralPhrase.tree : LiteralPhrase → Expression
  | number numeral => .number (nearestNumber numeral.text)
  | string quoted => .string (unquote quoted.text)
  | identifier name => .identifier name.text

mutual

/-- The tree of an expression, grouped to the left. -/
def ExpressionPhrase.tree : ExpressionPhrase → Expression
  | .mk first rest => ExpressionPhrase.restTree first.tree rest

/-- An expression with further terms joined to it, one after the other. -/
def ExpressionPhrase.restTree (left : Expression) :
    List (Joined sumOperators TermPhrase) → Expression
  | [] => left
  | ⟨operator, _, term⟩ :: rest =>
    ExpressionPhrase.restTree (.binary operator left term.tree) rest

/-- The tree of a term, grouped to the left. -/
def TermPhrase.tree : TermPhrase → Expression
  | .mk first rest => TermPhrase.restTree first.tree rest

/-- An expression with further factors joined to it, one after the other. -/
def TermPhrase.restTree (left : Expression) :
    List (Joined productOperators FactorPhrase) → Expression
  | [] => left
  | ⟨operator, _, factor⟩ :: rest =>
    TermPhrase.restTree (.binary operator left factor.tree) rest

/-- The tree of a factor. Its parentheses leave no node. -/
def FactorPhrase.tree : FactorPhrase → Expression
  | .parentheses _ inner _ => inner.tree
  | .literal literal => literal.tree

end

theorem ExpressionPhrase.tree_mk (first : TermPhrase)
    (rest : List (Joined sumOperators TermPhrase)) :
    (ExpressionPhrase.mk first rest).tree = joinedTree TermPhrase.tree first.tree rest := by
  rw [ExpressionPhrase.tree]
  generalize first.tree = left
  induction rest generalizing left with
  | nil => rfl
  | cons link rest ih => rw [ExpressionPhrase.restTree, ih]; rfl

theorem TermPhrase.tree_mk (first : FactorPhrase)
    (rest : List (Joined productOperators FactorPhrase)) :
    (TermPhrase.mk first rest).tree = joinedTree FactorPhrase.tree first.tree rest := by
  rw [TermPhrase.tree]
  generalize first.tree = left
  induction rest generalizing left with
  | nil => rfl
  | cons link rest ih => rw [TermPhrase.restTree, ih]; rfl

/-- The variable declaration of a phrase. -/
def VariablePhrase.tree (phrase : VariablePhrase) : Statement :=
  .variableDeclaration phrase.name.text phrase.typeName.text phrase.value.tree

/-- The parameter of a phrase. -/
def ParameterPhrase.tree (phrase : ParameterPhrase) : Parameter :=
  ⟨phrase.name.text, phrase.typeName.text⟩

/-- The parameters of a phrase, in their order. -/
def ParametersPhrase.tree (phrase : ParametersPhrase) : List Parameter :=
  phrase.first.tree :: phrase.rest.map fun (_, parameter) => parameter.tree

/-- The function of a signature with a given body. -/
def SignaturePhrase.tree (phrase : SignaturePhrase) (body : List Statement) : Statement :=
  .functionDeclaration phrase.name.text (phrase.parameters.elim [] ParametersPhrase.tree)
    phrase.returnType.text body

/-- The return statement of a phrase. -/
def ReturnPhrase.tree (phrase : ReturnPhrase) : Statement :=
  .returnStatement (phrase.argument.map ExpressionPhrase.tree)

mutual

/-- The statement of a phrase. -/
def StatementPhrase.tree : StatementPhrase → Statement
  | .variableDeclaration phrase => phrase.tree
  | .functionDeclaration signature _ body _ => signature.tree (StatementPhrase.bodyTree body)
  | .returnStatement phrase => phrase.tree

/-- The statements of phrases, in their order. -/
def StatementPhrase.bodyTree : List StatementPhrase → List Statement
  | [] => []
  | statement :: body => statement.tree :: StatementPhrase.bodyTree body

end

/-- The program of a phrase. -/
def ProgramPhrase.tree (phrase : ProgramPhrase) : Program :=
  ⟨StatementPhrase.bodyTree phrase.statements⟩

end TinyScript
