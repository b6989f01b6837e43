import TinyScript.Proofs.Acceptance
import TinyScript.Proofs.Numerals
import TinyScript.Proofs.Scanning

/-!
# Well-formed programs

A program is well-formed if its parts can be written: names are words that are not reserved, types
are those of the language, numbers are whole with a clear sign, and a string leaves one of the two
quotes free. What is read from a text is well-formed, because the tokens of a text are spelled
according to their kinds.
-/

namespace TinyScript

/-- The words that cannot be names. -/
def reservedWords : List String := ["let", "const", "function", "return", "string", "number"]

/-- The types of the language. -/
def typeNames : List String := ["string", "number"]

/-- Whether a text is a word: a letter or an underscore, then letters, digits and underscores. -/
def isWord : List Char → Bool
  | [] => false
  | first :: rest => isWordStart first && rest.all isWordPart

theorem Spells.ofWord {word : String} (h : isWord word.toList = true) :
    Spells (TokenKind.ofWord word) word.toList := by
  cases chars : word.toList with
  | nil => simp [chars, isWord] at h
  | cons first rest =>
    simp only [chars, isWord, Bool.and_eq_true, List.all_eq_true] at h
    have spells := Spells.word h.1 h.2
    rwa [← chars, String.ofList_toList, chars] at spells

/-- Whether a text may name a variable, a parameter or a function. -/
def isName (text : String) : Bool :=
  isWord text.toList && !reservedWords.contains text

/-- Whether all leaves of an expression can be written. -/
def Expression.isWellFormed : Expression → Bool
  | .binary _ left right => left.isWellFormed && right.isWellFormed
  | .identifier name => isName name
  | .number value => !value.negative && value.isIntegral
  | .string value => !(value.toList.contains '"' && value.toList.contains '\'')

/-- Whether the name and the type of a parameter can be written. -/
def Parameter.isWellFormed (parameter : Parameter) : Bool :=
  isName parameter.name && typeNames.contains parameter.typeName

mutual

/-- Whether the names, types and expressions of a statement can be written. -/
def Statement.isWellFormed : Statement → Bool
  | .variableDeclaration name typeName value =>
    isName name && typeNames.contains typeName && value.isWellFormed
  | .functionDeclaration name parameters returnType body =>
    isName name && parameters.all Parameter.isWellFormed && typeNames.contains returnType &&
      Statement.allWellFormed body
  | .returnStatement argument => argument.all Expression.isWellFormed

/-- Whether all statements of a row can be written. -/
def Statement.allWellFormed : List Statement → Bool
  | [] => true
  | statement :: rest => statement.isWellFormed && Statement.allWellFormed rest

end

/-- Whether all statements of a program can be written. -/
def Program.isWellFormed (program : Program) : Bool :=
  Statement.allWellFormed program.body

theorem Statement.allWellFormed_iff {body : List Statement} :
    Statement.allWellFormed body = true ↔ ∀ statement ∈ body, statement.isWellFormed = true := by
  induction body with
  | nil => simp [Statement.allWellFormed]
  | cons statement body ih => simp [Statement.allWellFormed, ih]

/-! ## Leaves -/

theorem eq_of_typeNames {name : String} (h : typeNames.contains name = true) :
    name = "string" ∨ name = "number" := by
  simpa [typeNames] using h

/-- A well-formed number is written as a row of digits that is read as the number. -/
theorem numeral_of_isWellFormed {value : Binary64}
    (h : (Expression.number value).isWellFormed = true) :
    (value.numeral .plain).toList ≠ [] ∧
      (∀ char ∈ (value.numeral .plain).toList, char.isDigit = true) ∧
      Binary64.ofDigits? (value.numeral .plain).toList = some value := by
  rw [Expression.isWellFormed, Bool.and_eq_true, Bool.not_eq_true'] at h
  exact Binary64.ofDigits?_numeral h.1 h.2

/-- A word is reserved exactly if it is a keyword. -/
theorem keyword?_eq_none_iff {word : String} :
    TokenKind.keyword? word = none ↔ reservedWords.contains word = false := by
  unfold TokenKind.keyword?
  split <;> simp_all [reservedWords]

theorem ofWord_eq_identifier_iff {word : String} :
    TokenKind.ofWord word = .identifier ↔ reservedWords.contains word = false := by
  rw [← keyword?_eq_none_iff, TokenKind.ofWord]
  unfold TokenKind.keyword?
  split <;> simp

theorem ofWord_eq_typeKeyword_iff {word : String} :
    TokenKind.ofWord word = .typeKeyword ↔ typeNames.contains word = true := by
  rw [TokenKind.ofWord]
  unfold TokenKind.keyword?
  split <;> simp_all [typeNames]

theorem symbol?_ne_of_word {char : Char} {kind : TokenKind}
    (h : TokenKind.symbol? char = some kind) : kind ≠ .identifier ∧ kind ≠ .typeKeyword ∧
      kind ≠ .string := by
  have member := mem_symbolChars_of_symbol? h
  have all : symbolChars.all (fun char => (TokenKind.symbol? char).all fun kind =>
      kind ≠ .identifier ∧ kind ≠ .typeKeyword ∧ kind ≠ .string) = true := by
    decide
  have known := List.all_eq_true.mp all char member
  rw [h] at known
  exact of_decide_eq_true known

theorem isName_of_spells {kind : TokenKind} {text : List Char} (spells : Spells kind text)
    (isIdentifier : kind = .identifier) : isName (String.ofList text) = true := by
  cases spells with
  | number nonempty all => cases isIdentifier
  | string isQuote free => cases isIdentifier
  | word start all =>
    rw [ofWord_eq_identifier_iff] at isIdentifier
    rw [isName, isIdentifier, String.toList_ofList, isWord, start]
    simpa using all
  | symbol isSymbol => exact absurd isIdentifier (symbol?_ne_of_word isSymbol).1

theorem typeNames_of_spells {kind : TokenKind} {text : List Char} (spells : Spells kind text)
    (isType : kind = .typeKeyword) : typeNames.contains (String.ofList text) = true := by
  cases spells with
  | number nonempty all => cases isType
  | string isQuote free => cases isType
  | word start all => exact ofWord_eq_typeKeyword_iff.mp isType
  | symbol isSymbol => exact absurd isType (symbol?_ne_of_word isSymbol).2.1

theorem Spells.exists_quoted {kind : TokenKind} {text : List Char} (spells : Spells kind text)
    (isString : kind = .string) :
    ∃ quote content, isQuote quote = true ∧ quote ∉ content ∧
      text = quote :: (content ++ [quote]) := by
  cases spells with
  | number nonempty all => cases isString
  | string isQuote free => exact ⟨_, _, isQuote, free, rfl⟩
  | word start all =>
    unfold TokenKind.ofWord TokenKind.keyword? at isString
    split at isString <;> cases isString
  | symbol isSymbol => exact absurd isString (symbol?_ne_of_word isSymbol).2.2

/-- The text between two quotes of one sort does not hold that sort. -/
theorem free_quote_of_spells {kind : TokenKind} {text : List Char} (spells : Spells kind text)
    (isString : kind = .string) :
    (Expression.string (unquote (String.ofList text))).isWellFormed = true := by
  obtain ⟨quote, content, isQuote, free, rfl⟩ := spells.exists_quoted isString
  rw [unquote, String.toList_ofList, List.tail_cons, List.dropLast_concat,
    Expression.isWellFormed, String.toList_ofList]
  rcases Bool.or_eq_true_iff.mp isQuote with double | single
  · simp_all
  · simp_all

theorem nearestNumber_isWellFormed (digits : String) :
    (Expression.number (nearestNumber digits)).isWellFormed = true := by
  rw [Expression.isWellFormed, nearestNumber]
  cases read : Binary64.ofDigits? digits.toList with
  | none =>
    rw [Option.getD_none, Binary64.isIntegral_zero]
    rfl
  | some value =>
    have whole := Binary64.isIntegral_of_ofDigits? read
    simp [whole]

/-! ## Trees of phrases -/

/-- A symbol that is spelled according to its kind. -/
def Symbol.Proper (symbol : Symbol) : Prop :=
  Spells symbol.kind symbol.text.toList

theorem Terminal.isName {terminal : Terminal .identifier} (h : terminal.symbol.Proper) :
    isName terminal.text = true := by
  have name := isName_of_spells h rfl
  rwa [String.ofList_toList] at name

theorem Terminal.isTypeName {terminal : Terminal .typeKeyword} (h : terminal.symbol.Proper) :
    typeNames.contains terminal.text = true := by
  have type := typeNames_of_spells h rfl
  rwa [String.ofList_toList] at type

theorem LiteralPhrase.tree_isWellFormed {phrase : LiteralPhrase} (h : phrase.symbol.Proper) :
    phrase.tree.isWellFormed = true := by
  cases phrase with
  | number numeral => exact nearestNumber_isWellFormed numeral.text
  | string quoted =>
    have free := free_quote_of_spells h rfl
    rwa [String.ofList_toList] at free
  | identifier name => exact Terminal.isName h

mutual

theorem ExpressionPhrase.tree_isWellFormed : (phrase : ExpressionPhrase) →
    (∀ symbol ∈ phrase.symbols, symbol.Proper) → phrase.tree.isWellFormed = true
  | .mk first rest, proper => by
    rw [ExpressionPhrase.symbols, List.forall_mem_append] at proper
    exact ExpressionPhrase.restTree_isWellFormed (first.tree_isWellFormed proper.1) rest proper.2

theorem ExpressionPhrase.restTree_isWellFormed {left : Expression}
    (wellFormed : left.isWellFormed = true) :
    (rest : List (Joined sumOperators TermPhrase)) →
    (∀ symbol ∈ ExpressionPhrase.restSymbols rest, symbol.Proper) →
    (ExpressionPhrase.restTree left rest).isWellFormed = true
  | [], _ => wellFormed
  | ⟨operator, _, term⟩ :: rest, proper => by
    rw [ExpressionPhrase.restSymbols, List.cons_append, List.forall_mem_cons,
      List.forall_mem_append] at proper
    refine ExpressionPhrase.restTree_isWellFormed ?_ rest proper.2.2
    rw [Expression.isWellFormed, wellFormed, term.tree_isWellFormed proper.2.1]
    rfl

theorem TermPhrase.tree_isWellFormed : (phrase : TermPhrase) →
    (∀ symbol ∈ phrase.symbols, symbol.Proper) → phrase.tree.isWellFormed = true
  | .mk first rest, proper => by
    rw [TermPhrase.symbols, List.forall_mem_append] at proper
    exact TermPhrase.restTree_isWellFormed (first.tree_isWellFormed proper.1) rest proper.2

theorem TermPhrase.restTree_isWellFormed {left : Expression}
    (wellFormed : left.isWellFormed = true) :
    (rest : List (Joined productOperators FactorPhrase)) →
    (∀ symbol ∈ TermPhrase.restSymbols rest, symbol.Proper) →
    (TermPhrase.restTree left rest).isWellFormed = true
  | [], _ => wellFormed
  | ⟨operator, _, factor⟩ :: rest, proper => by
    rw [TermPhrase.restSymbols, List.cons_append, List.forall_mem_cons,
      List.forall_mem_append] at proper
    refine TermPhrase.restTree_isWellFormed ?_ rest proper.2.2
    rw [Expression.isWellFormed, wellFormed, factor.tree_isWellFormed proper.2.1]
    rfl

theorem FactorPhrase.tree_isWellFormed : (phrase : FactorPhrase) →
    (∀ symbol ∈ phrase.symbols, symbol.Proper) → phrase.tree.isWellFormed = true
  | .parentheses left inner right, proper => by
    rw [FactorPhrase.symbols, List.forall_mem_append, List.forall_mem_append] at proper
    exact inner.tree_isWellFormed proper.1.2
  | .literal literal, proper => by
    exact LiteralPhrase.tree_isWellFormed (proper literal.symbol (List.mem_singleton_self _))

end

theorem VariablePhrase.tree_isWellFormed {phrase : VariablePhrase}
    (proper : ∀ symbol ∈ phrase.symbols, symbol.Proper) : phrase.tree.isWellFormed = true := by
  simp only [VariablePhrase.symbols, List.forall_mem_append, List.forall_mem_cons] at proper
  obtain ⟨⟨⟨_, name, _, typeName, _⟩, value⟩, _⟩ := proper
  rw [VariablePhrase.tree, Statement.isWellFormed, Terminal.isName name,
    Terminal.isTypeName typeName, phrase.value.tree_isWellFormed value]
  rfl

theorem ParameterPhrase.tree_isWellFormed {phrase : ParameterPhrase}
    (proper : ∀ symbol ∈ phrase.symbols, symbol.Proper) : phrase.tree.isWellFormed = true := by
  simp only [ParameterPhrase.symbols, List.forall_mem_cons] at proper
  obtain ⟨name, _, typeName, _⟩ := proper
  rw [ParameterPhrase.tree, Parameter.isWellFormed, Terminal.isName name,
    Terminal.isTypeName typeName]
  rfl

theorem ParametersPhrase.tree_isWellFormed {phrase : ParametersPhrase}
    (proper : ∀ symbol ∈ phrase.symbols, symbol.Proper) :
    phrase.tree.all Parameter.isWellFormed = true := by
  rw [ParametersPhrase.symbols, List.forall_mem_append] at proper
  rw [ParametersPhrase.tree, List.all_cons, ParameterPhrase.tree_isWellFormed proper.1,
    Bool.true_and, List.all_map, List.all_eq_true]
  rintro ⟨comma, parameter⟩ member
  apply ParameterPhrase.tree_isWellFormed
  intro symbol inside
  apply proper.2
  rw [moreSymbols, List.mem_flatMap]
  exact ⟨(comma, parameter), member, List.mem_cons_of_mem _ inside⟩

theorem ReturnPhrase.tree_isWellFormed {phrase : ReturnPhrase}
    (proper : ∀ symbol ∈ phrase.symbols, symbol.Proper) : phrase.tree.isWellFormed = true := by
  obtain ⟨keyword, argument, semicolon⟩ := phrase
  cases argument with
  | none => rfl
  | some argument =>
    simp only [ReturnPhrase.symbols, List.forall_mem_append] at proper
    exact argument.tree_isWellFormed proper.1.2

theorem SignaturePhrase.tree_isWellFormed {phrase : SignaturePhrase} {body : List Statement}
    (proper : ∀ symbol ∈ phrase.symbols, symbol.Proper)
    (inner : Statement.allWellFormed body = true) : (phrase.tree body).isWellFormed = true := by
  simp only [SignaturePhrase.symbols, List.forall_mem_append, List.forall_mem_cons] at proper
  obtain ⟨⟨⟨_, name, _⟩, parameters⟩, _, _, returnType, _⟩ := proper
  have all :
      (phrase.parameters.elim [] ParametersPhrase.tree).all Parameter.isWellFormed = true := by
    cases written : phrase.parameters with
    | none => rfl
    | some list =>
      rw [written] at parameters
      exact ParametersPhrase.tree_isWellFormed parameters
  rw [SignaturePhrase.tree, Statement.isWellFormed, Terminal.isName name, all,
    Terminal.isTypeName returnType, inner]
  rfl

mutual

theorem StatementPhrase.tree_isWellFormed : (phrase : StatementPhrase) →
    (∀ symbol ∈ phrase.symbols, symbol.Proper) → phrase.tree.isWellFormed = true
  | .variableDeclaration phrase, proper => VariablePhrase.tree_isWellFormed proper
  | .functionDeclaration signature left body right, proper => by
    simp only [StatementPhrase.symbols, List.forall_mem_append] at proper
    exact SignaturePhrase.tree_isWellFormed proper.1.1.1
      (StatementPhrase.bodyTree_allWellFormed body proper.1.2)
  | .returnStatement phrase, proper => ReturnPhrase.tree_isWellFormed proper

theorem StatementPhrase.bodyTree_allWellFormed : (body : List StatementPhrase) →
    (∀ symbol ∈ StatementPhrase.bodySymbols body, symbol.Proper) →
    Statement.allWellFormed (StatementPhrase.bodyTree body) = true
  | [], _ => rfl
  | statement :: body, proper => by
    rw [StatementPhrase.bodySymbols, List.forall_mem_append] at proper
    rw [StatementPhrase.bodyTree, Statement.allWellFormed,
      statement.tree_isWellFormed proper.1, StatementPhrase.bodyTree_allWellFormed body proper.2]
    rfl

end

/-- What is read from a text is well-formed. -/
theorem Program.isWellFormed_of_parse {source : String} {program : Program}
    (h : Program.parse source = .ok program) : program.isWellFormed = true := by
  obtain ⟨tokens, phrase, tokenized, derived, -, rfl⟩ := Program.parse_eq_ok_iff_phrase.mp h
  apply StatementPhrase.bodyTree_allWellFormed
  intro symbol member
  rw [← ProgramPhrase.symbols, derived] at member
  obtain ⟨token, isToken, rfl⟩ := List.mem_map.mp member
  exact spells_of_tokenize tokenized token isToken

end TinyScript
