import TinyScript.Proofs.Prediction
import TinyScript.Proofs.PrintRoundTrip

/-!
# Nothing but parentheses is dropped

The tokens of a source text and those of the canonical text of its program correspond to each other
one by one, once the parentheses inside expressions are left out of both. A declaration starts with
`let` in any case, a numeral is that of the number which is read from it, and a string may have the
other quotes; all other tokens are the same.

Rows of symbols are compared with arbitrary rows behind them. So the comparison goes through rows
that are put together, and a parenthesis in one of them alone does not disturb it.
-/

namespace TinyScript

/-! ## Rows without grouping -/

/-- Whether a symbol is a parenthesis. -/
def Symbol.isParenthesis (symbol : Symbol) : Bool :=
  symbol.kind = .lParen || symbol.kind = .rParen

/-- A row of symbols without the parentheses inside expressions. The parentheses of a signature,
    which goes from `function` to the next closing parenthesis, are kept. -/
def ungroup (inSignature : Bool) : List Symbol → List Symbol
  | [] => []
  | symbol :: rest =>
    if symbol.isParenthesis && !inSignature then ungroup false rest
    else
      symbol ::
        ungroup (symbol.kind = .functionKeyword || (inSignature && symbol.kind ≠ .rParen)) rest

/-- The symbols of tokens without the parentheses inside expressions. -/
def ungrouped (tokens : List Token) : List Symbol :=
  ungroup false (tokens.map Token.symbol)

theorem ungroup_parenthesis {symbol : Symbol} (h : symbol.isParenthesis = true)
    (rest : List Symbol) : ungroup false (symbol :: rest) = ungroup false rest := by
  simp [ungroup, h]

theorem ungroup_symbol {symbol : Symbol} (noParenthesis : symbol.isParenthesis = false)
    (noFunction : symbol.kind ≠ .functionKeyword) (rest : List Symbol) :
    ungroup false (symbol :: rest) = symbol :: ungroup false rest := by
  simp [ungroup, noParenthesis, noFunction]

theorem ungroup_inside {inside : List Symbol} (noClosing : ∀ symbol ∈ inside, symbol.kind ≠ .rParen)
    (rest : List Symbol) : ungroup true (inside ++ rest) = inside ++ ungroup true rest := by
  induction inside with
  | nil => rfl
  | cons symbol inside ih =>
    obtain ⟨first, others⟩ := List.forall_mem_cons.mp noClosing
    simp [ungroup, first, ih others]

theorem ungroup_signature {keyword right : Symbol} {inside : List Symbol}
    (isFunction : keyword.kind = .functionKeyword)
    (noClosing : ∀ symbol ∈ inside, symbol.kind ≠ .rParen) (closing : right.kind = .rParen)
    (rest : List Symbol) :
    ungroup false (keyword :: (inside ++ right :: rest)) =
      keyword :: (inside ++ right :: ungroup false rest) := by
  have opened : ungroup false (keyword :: (inside ++ right :: rest)) =
      keyword :: ungroup true (inside ++ right :: rest) := by
    simp [ungroup, Symbol.isParenthesis, isFunction]
  rw [opened, ungroup_inside noClosing]
  simp [ungroup, closing]

/-! ## What becomes of a symbol -/

/-- What a symbol of a text becomes in the canonical text of its program. -/
inductive Restates : Symbol → Symbol → Prop
  | declaration {word : String} (either : word = "let" ∨ word = "const") :
      Restates ⟨.varKeyword, word⟩ ⟨.varKeyword, "let"⟩
  | number {digits : String} {value : Binary64}
      (read : Binary64.ofDigits? digits.toList = some value) :
      Restates ⟨.number, digits⟩ ⟨.number, value.numeral .plain⟩
  | string {text text' : String} {quote quote' : Char} {content : List Char}
      (isQuote : TinyScript.isQuote quote) (written : text.toList = quote :: (content ++ [quote]))
      (isQuote' : TinyScript.isQuote quote')
      (written' : text'.toList = quote' :: (content ++ [quote'])) :
      Restates ⟨.string, text⟩ ⟨.string, text'⟩
  | same {symbol : Symbol} (fixed : symbol.kind ∉ [.varKeyword, .number, .string]) :
      Restates symbol symbol

/-- Two rows correspond symbol by symbol without their grouping, given that what stands behind them
    does. -/
def Rewords (row row' : List Symbol) : Prop :=
  ∀ rest rest', List.Forall₂ Restates (ungroup false rest) (ungroup false rest') →
    List.Forall₂ Restates (ungroup false (row ++ rest)) (ungroup false (row' ++ rest'))

theorem Rewords.nil : Rewords [] [] :=
  fun _ _ h => h

theorem Rewords.append {first first' second second' : List Symbol} (h : Rewords first first')
    (h' : Rewords second second') : Rewords (first ++ second) (first' ++ second') := by
  intro rest rest' behind
  rw [List.append_assoc, List.append_assoc]
  exact h _ _ (h' _ _ behind)

theorem Rewords.parenthesis_left {symbol : Symbol} (h : symbol.isParenthesis = true) :
    Rewords [symbol] [] := by
  intro rest rest' behind
  rwa [List.singleton_append, ungroup_parenthesis h]

theorem Rewords.parenthesis_right {symbol : Symbol} (h : symbol.isParenthesis = true) :
    Rewords [] [symbol] := by
  intro rest rest' behind
  rwa [List.singleton_append, ungroup_parenthesis h]

theorem Restates.kind_eq {symbol symbol' : Symbol} (h : Restates symbol symbol') :
    symbol'.kind = symbol.kind := by
  cases h <;> rfl

theorem Restates.rewords {symbol symbol' : Symbol} (h : Restates symbol symbol')
    (noParenthesis : symbol.isParenthesis = false)
    (noFunction : symbol.kind ≠ .functionKeyword) : Rewords [symbol] [symbol'] := by
  have noParenthesis' : symbol'.isParenthesis = false := by
    rwa [Symbol.isParenthesis, h.kind_eq]
  have noFunction' : symbol'.kind ≠ .functionKeyword := by rwa [h.kind_eq]
  intro rest rest' behind
  rw [List.singleton_append, List.singleton_append, ungroup_symbol noParenthesis noFunction,
    ungroup_symbol noParenthesis' noFunction']
  exact .cons h behind

theorem Rewords.group {row row' : List Symbol} (h : Rewords row row') (bracket : Bool) :
    Rewords row (sourceLexis.group bracket row') := by
  cases bracket with
  | false => exact h
  | true =>
    have opened := (parenthesis_right (rfl : (sourceLexis.mark '(').isParenthesis = true)).append h
    have closed := opened.append
      (parenthesis_right (rfl : (sourceLexis.mark ')').isParenthesis = true))
    simpa [Lexis.group] using closed

/-! ## Spellings -/

/-- Tokens of a kind that does not vary have one text. -/
theorem Spells.text_eq_sample {kind : TokenKind} {text : List Char} (spells : Spells kind text)
    (fixed : kind.varies = false) : String.ofList text = kind.sample := by
  cases spells with
  | number nonempty all => cases fixed
  | string isQuote free => cases fixed
  | @word first start rest all =>
    generalize String.ofList (first :: rest) = word at fixed
    unfold TokenKind.ofWord TokenKind.keyword? at fixed ⊢
    split at fixed <;> first | rfl | cases fixed
  | @symbol char kind isSymbol =>
    have all : symbolChars.all (fun char => (TokenKind.symbol? char).all fun kind =>
        kind.varies || String.ofList [char] = kind.sample) = true := by decide
    have known := List.all_eq_true.mp all char (mem_symbolChars_of_symbol? isSymbol)
    rw [isSymbol] at known
    simpa [fixed] using known

theorem Spells.eq_let_or_const {kind : TokenKind} {text : List Char} (spells : Spells kind text)
    (declares : kind = .varKeyword) :
    String.ofList text = "let" ∨ String.ofList text = "const" := by
  cases spells with
  | number nonempty all => cases declares
  | string isQuote free => cases declares
  | @word first start rest all =>
    generalize String.ofList (first :: rest) = word at declares
    unfold TokenKind.ofWord TokenKind.keyword? at declares
    split at declares <;> simp_all
  | @symbol char kind isSymbol =>
    have all : symbolChars.all (fun char => TokenKind.symbol? char ≠ some .varKeyword) = true := by
      decide
    have known := List.all_eq_true.mp all char (mem_symbolChars_of_symbol? isSymbol)
    rw [isSymbol, declares] at known
    cases known

namespace Terminal

variable {kind : TokenKind} {terminal : Terminal kind}

theorem text_eq_sample (proper : terminal.symbol.Proper) (fixed : kind.varies = false) :
    terminal.text = kind.sample := by
  have text := Spells.text_eq_sample proper fixed
  rwa [String.ofList_toList] at text

theorem rewords_self
    (h : kind ∉ [.varKeyword, .number, .string, .functionKeyword, .lParen, .rParen])
    (terminal : Terminal kind) : Rewords [terminal.symbol] [⟨kind, terminal.text⟩] := by
  simp only [List.mem_cons, List.not_mem_nil, or_false, not_or] at h
  refine Restates.rewords (.same ?_) ?_ h.2.2.2.1
  · simp [symbol, h]
  · simp [Symbol.isParenthesis, symbol, h]

/-- A terminal that has one text only. -/
theorem rewords_sample (proper : terminal.symbol.Proper) (fixed : kind.varies = false)
    (h : kind ∉ [.varKeyword, .number, .string, .functionKeyword, .lParen, .rParen]) :
    Rewords [terminal.symbol] [⟨kind, kind.sample⟩] := by
  rw [← text_eq_sample proper fixed]
  exact rewords_self h terminal

end Terminal

/-! ## Expressions -/

theorem Operator.rewords (operator : Operator) :
    Rewords [operator.terminal] [operator.terminal] :=
  Restates.rewords (.same (by simp [terminal])) rfl (by simp [terminal])

theorem LiteralPhrase.rewords {phrase : LiteralPhrase} (proper : phrase.symbol.Proper)
    (inRange : phrase.symbol.InRange) :
    Rewords [phrase.symbol] (sourceLexis.tokens phrase.tree) := by
  cases phrase with
  | number numeral =>
    obtain ⟨digits⟩ := numeral
    obtain ⟨value, read⟩ := inRange rfl
    have nearest : nearestNumber digits = value := by
      rw [nearestNumber]
      exact congrArg (Option.getD · Binary64.zero) read
    rw [tree, nearest]
    exact Restates.rewords (.number read) rfl (by simp [LiteralPhrase.symbol, Terminal.symbol])
  | string quoted =>
    obtain ⟨text⟩ := quoted
    obtain ⟨quote, content, isQuote, -, written⟩ :
        ∃ quote content, isQuote quote = true ∧ quote ∉ content ∧
          text.toList = quote :: (content ++ [quote]) :=
      Spells.exists_quoted proper rfl
    obtain ⟨quote', isQuote', literal, -⟩ := quoteLiteral_toList (unquote text)
    have value : (unquote text).toList = content := by
      rw [unquote, written, List.tail_cons, List.dropLast_concat, String.toList_ofList]
    rw [value] at literal
    rw [tree, Lexis.tokens]
    exact Restates.rewords (.string isQuote written isQuote' literal) rfl
      (by simp [LiteralPhrase.symbol, Terminal.symbol])
  | identifier name =>
    rw [tree, Lexis.tokens, (word_of_isName (Terminal.isName proper)).2]
    exact name.rewords_self (by decide)

/-- A symbol of a text that is read: it is spelled according to its kind, and in range. -/
def Symbol.Readable (symbol : Symbol) : Prop :=
  symbol.Proper ∧ symbol.InRange

/-- Joining an operand to an expression joins its row, whatever parentheses the joined expression
    has. -/
theorem Rewords.binary {row row' : List Symbol} {left right : Expression} (operator : Operator)
    (h : Rewords row (sourceLexis.tokens left)) (h' : Rewords row' (sourceLexis.tokens right)) :
    Rewords (row ++ operator.terminal :: row')
      (sourceLexis.tokens (.binary operator left right)) := by
  have joined := (h.group (left.precedence < operator.precedence)).append operator.rewords
  have whole := joined.append (h'.group (right.precedence ≤ operator.precedence))
  simp only [List.append_assoc, List.singleton_append] at whole
  exact whole

mutual

/-- The symbols of a phrase are those of its tree, apart from parentheses. -/
theorem ExpressionPhrase.rewords : (phrase : ExpressionPhrase) →
    (∀ symbol ∈ phrase.symbols, symbol.Readable) →
    Rewords phrase.symbols (sourceLexis.tokens phrase.tree)
  | .mk first rest, readable => by
    rw [ExpressionPhrase.symbols, List.forall_mem_append] at readable
    exact ExpressionPhrase.rewords_restTree (first.rewords readable.1) rest readable.2

theorem ExpressionPhrase.rewords_restTree {row : List Symbol} {left : Expression}
    (before : Rewords row (sourceLexis.tokens left)) :
    (rest : List (Joined sumOperators TermPhrase)) →
    (∀ symbol ∈ ExpressionPhrase.restSymbols rest, symbol.Readable) →
    Rewords (row ++ ExpressionPhrase.restSymbols rest)
      (sourceLexis.tokens (ExpressionPhrase.restTree left rest))
  | [], _ => by
    rw [ExpressionPhrase.restSymbols, List.append_nil]
    exact before
  | ⟨operator, _, term⟩ :: rest, readable => by
    rw [ExpressionPhrase.restSymbols, List.cons_append, List.forall_mem_cons,
      List.forall_mem_append] at readable
    have joined := before.binary operator (term.rewords readable.2.1)
    have whole := ExpressionPhrase.rewords_restTree joined rest readable.2.2
    simpa [ExpressionPhrase.restSymbols, ExpressionPhrase.restTree] using whole

theorem TermPhrase.rewords : (phrase : TermPhrase) →
    (∀ symbol ∈ phrase.symbols, symbol.Readable) →
    Rewords phrase.symbols (sourceLexis.tokens phrase.tree)
  | .mk first rest, readable => by
    rw [TermPhrase.symbols, List.forall_mem_append] at readable
    exact TermPhrase.rewords_restTree (first.rewords readable.1) rest readable.2

theorem TermPhrase.rewords_restTree {row : List Symbol} {left : Expression}
    (before : Rewords row (sourceLexis.tokens left)) :
    (rest : List (Joined productOperators FactorPhrase)) →
    (∀ symbol ∈ TermPhrase.restSymbols rest, symbol.Readable) →
    Rewords (row ++ TermPhrase.restSymbols rest)
      (sourceLexis.tokens (TermPhrase.restTree left rest))
  | [], _ => by
    rw [TermPhrase.restSymbols, List.append_nil]
    exact before
  | ⟨operator, _, factor⟩ :: rest, readable => by
    rw [TermPhrase.restSymbols, List.cons_append, List.forall_mem_cons,
      List.forall_mem_append] at readable
    have joined := before.binary operator (factor.rewords readable.2.1)
    have whole := TermPhrase.rewords_restTree joined rest readable.2.2
    simpa [TermPhrase.restSymbols, TermPhrase.restTree] using whole

theorem FactorPhrase.rewords : (phrase : FactorPhrase) →
    (∀ symbol ∈ phrase.symbols, symbol.Readable) →
    Rewords phrase.symbols (sourceLexis.tokens phrase.tree)
  | .parentheses left inner right, readable => by
    rw [FactorPhrase.symbols, List.forall_mem_append, List.forall_mem_append] at readable
    have opened := (Rewords.parenthesis_left (rfl : left.symbol.isParenthesis = true)).append
      (inner.rewords readable.1.2)
    have closed := opened.append
      (Rewords.parenthesis_left (rfl : right.symbol.isParenthesis = true))
    rwa [List.nil_append, List.append_nil] at closed
  | .literal literal, readable => by
    obtain ⟨proper, inRange⟩ := readable literal.symbol (List.mem_singleton_self _)
    exact LiteralPhrase.rewords proper inRange

end

/-! ## Statements -/

theorem VariablePhrase.rewords {phrase : VariablePhrase}
    (readable : ∀ symbol ∈ phrase.symbols, symbol.Readable) :
    Rewords phrase.symbols phrase.tree.row := by
  simp only [VariablePhrase.symbols, List.forall_mem_append, List.forall_mem_cons] at readable
  obtain ⟨⟨⟨keyword, -, colon, -, assign, -⟩, value⟩, semicolon, -⟩ := readable
  have declares : Restates phrase.keyword.symbol ⟨.varKeyword, "let"⟩ := by
    have either := Spells.eq_let_or_const keyword.1 rfl
    rw [String.ofList_toList] at either
    exact .declaration either
  have declared := (declares.rewords rfl (by simp [Terminal.symbol])).append
    (phrase.name.rewords_self (by decide))
  have typed := (declared.append (Terminal.rewords_sample colon.1 rfl (by decide))).append
    (phrase.typeName.rewords_self (by decide))
  have valued := (typed.append (Terminal.rewords_sample assign.1 rfl (by decide))).append
    (phrase.value.rewords value)
  exact valued.append (Terminal.rewords_sample semicolon.1 rfl (by decide))

theorem ReturnPhrase.rewords {phrase : ReturnPhrase}
    (readable : ∀ symbol ∈ phrase.symbols, symbol.Readable) :
    Rewords phrase.symbols phrase.tree.row := by
  obtain ⟨keyword, argument, semicolon⟩ := phrase
  simp only [ReturnPhrase.symbols, List.forall_mem_append, List.forall_mem_singleton] at readable
  obtain ⟨⟨returns, value⟩, ends⟩ := readable
  have returned : Rewords [keyword.symbol] [⟨.returnKeyword, "return"⟩] :=
    Terminal.rewords_sample returns.1 rfl (by decide)
  have ended : Rewords [semicolon.symbol] [⟨.semicolon, ";"⟩] :=
    Terminal.rewords_sample ends.1 rfl (by decide)
  cases argument with
  | none => exact (returned.append .nil).append ended
  | some argument => exact (returned.append (argument.rewords value)).append ended

theorem Terminal.eq_sample {kind : TokenKind} {terminal : Terminal kind}
    (proper : terminal.symbol.Proper) (fixed : kind.varies = false) : terminal = ⟨kind.sample⟩ :=
  Terminal.ext (Terminal.text_eq_sample proper fixed)

theorem ParameterPhrase.phrase_tree {phrase : ParameterPhrase}
    (proper : phrase.colon.symbol.Proper) : phrase.tree.phrase = phrase := by
  obtain ⟨name, colon, typeName⟩ := phrase
  obtain rfl := Terminal.eq_sample proper rfl
  rfl

/-- Parameters have one phrase only. -/
theorem ParametersPhrase.phrase_tree {phrase : ParametersPhrase}
    (proper : ∀ symbol ∈ phrase.symbols, symbol.Proper) :
    parametersPhrase phrase.tree = some phrase := by
  obtain ⟨first, rest⟩ := phrase
  simp only [ParametersPhrase.symbols, List.forall_mem_append, ParameterPhrase.symbols,
    List.forall_mem_cons] at proper
  obtain ⟨⟨-, colon, -⟩, more⟩ := proper
  have each : ∀ link ∈ rest,
      ((⟨","⟩, link.2.tree.phrase) : Terminal .comma × ParameterPhrase) = link := by
    rintro ⟨comma, parameter⟩ member
    have inside : ∀ symbol ∈ comma.symbol :: parameter.symbols, symbol.Proper := by
      intro symbol among
      exact more symbol (List.mem_flatMap.mpr ⟨_, member, among⟩)
    simp only [ParameterPhrase.symbols, List.forall_mem_cons] at inside
    obtain ⟨isComma, -, colon, -⟩ := inside
    obtain rfl := Terminal.eq_sample isComma rfl
    exact congrArg _ (ParameterPhrase.phrase_tree colon)
  rw [ParametersPhrase.tree, parametersPhrase, ParameterPhrase.phrase_tree colon, List.map_map]
  exact congrArg (fun rest => some (ParametersPhrase.mk first rest))
    ((List.map_congr_left each).trans (List.map_id rest))

theorem parametersPhrase_tree_elim {parameters : Option ParametersPhrase}
    (proper : ∀ symbol ∈ parameters.elim [] ParametersPhrase.symbols, symbol.Proper) :
    parametersPhrase (parameters.elim [] ParametersPhrase.tree) = parameters := by
  cases parameters with
  | none => rfl
  | some phrase => exact ParametersPhrase.phrase_tree proper

/-- Between the parentheses of a signature stand names, types, colons and commas. -/
theorem ParametersPhrase.kind_mem {parameters : Option ParametersPhrase} :
    ∀ symbol ∈ parameters.elim [] ParametersPhrase.symbols,
      symbol.kind ∈ [.identifier, .colon, .typeKeyword, .comma] := by
  cases parameters with
  | none => exact List.forall_mem_nil _
  | some phrase =>
    simp only [Option.elim_some, ParametersPhrase.symbols, ParameterPhrase.symbols, moreSymbols,
      List.forall_mem_append, List.forall_mem_flatMap, List.forall_mem_cons]
    simp [Terminal.symbol]

/-- The symbols of a signature up to its closing parenthesis are kept. -/
theorem Rewords.signature {keyword right : Symbol} {inside : List Symbol}
    (isFunction : keyword.kind = .functionKeyword)
    (others : ∀ symbol ∈ inside, symbol.kind ∉ [.varKeyword, .number, .string, .rParen])
    (closing : right.kind = .rParen) :
    Rewords (keyword :: (inside ++ [right])) (keyword :: (inside ++ [right])) := by
  have noClosing : ∀ symbol ∈ inside, symbol.kind ≠ .rParen := by
    intro symbol member isClosing
    exact others symbol member (by simp [isClosing])
  have same : List.Forall₂ Restates inside inside := by
    rw [List.forall₂_same]
    intro symbol member
    have other := others symbol member
    simp only [List.mem_cons, List.not_mem_nil, or_false, not_or] at other
    exact .same (by simp [other])
  intro rest rest' behind
  simp only [List.cons_append, List.append_assoc, List.nil_append]
  rw [ungroup_signature isFunction noClosing closing,
    ungroup_signature isFunction noClosing closing]
  have ended := List.Forall₂.cons (Restates.same (by simp [closing] : right.kind ∉ _)) behind
  exact .cons (.same (by simp [isFunction])) (List.rel_append same ended)

theorem SignaturePhrase.rewords {phrase : SignaturePhrase}
    (readable : ∀ symbol ∈ phrase.symbols, symbol.Readable) :
    Rewords phrase.symbols
      ([⟨.functionKeyword, "function"⟩, ⟨.identifier, phrase.name.text⟩, ⟨.lParen, "("⟩] ++
        (parametersPhrase (phrase.parameters.elim [] ParametersPhrase.tree)).elim []
          ParametersPhrase.symbols ++
        [⟨.rParen, ")"⟩, ⟨.colon, ":"⟩, ⟨.typeKeyword, phrase.returnType.text⟩]) := by
  obtain ⟨keyword, name, left, parameters, right, colon, returnType⟩ := phrase
  simp only [SignaturePhrase.symbols, List.forall_mem_append, List.forall_mem_cons] at readable
  obtain ⟨⟨⟨isFunction, -, opening, -⟩, inside⟩, closing, isColon, -, -⟩ := readable
  have others : ∀ symbol ∈
      name.symbol :: left.symbol :: parameters.elim [] ParametersPhrase.symbols,
      symbol.kind ∉ [.varKeyword, .number, .string, .rParen] := by
    simp only [List.forall_mem_cons]
    refine ⟨by simp [Terminal.symbol], by simp [Terminal.symbol], ?_⟩
    intro symbol member
    have kinds := ParametersPhrase.kind_mem symbol member
    simp only [List.mem_cons, List.not_mem_nil, or_false] at kinds
    rcases kinds with kind | kind | kind | kind <;> simp [kind]
  have signature := Rewords.signature (rfl : keyword.symbol.kind = .functionKeyword) others
    (rfl : right.symbol.kind = .rParen)
  have typed := (signature.append (Terminal.rewords_sample isColon.1 rfl (by decide))).append
    (returnType.rewords_self (by decide))
  rw [parametersPhrase_tree_elim fun symbol member => (inside symbol member).1]
  obtain rfl := Terminal.eq_sample isFunction.1 rfl
  obtain rfl := Terminal.eq_sample opening.1 rfl
  obtain rfl := Terminal.eq_sample closing.1 rfl
  simp only [List.cons_append, List.append_assoc, List.nil_append] at typed
  simp only [SignaturePhrase.symbols, List.cons_append, List.nil_append]
  exact typed

mutual

/-- The symbols of a statement are those of its canonical text, apart from parentheses. -/
theorem StatementPhrase.rewords : (phrase : StatementPhrase) →
    (∀ symbol ∈ phrase.symbols, symbol.Readable) → Rewords phrase.symbols phrase.tree.row
  | .variableDeclaration phrase, readable => VariablePhrase.rewords readable
  | .functionDeclaration signature left body right, readable => by
    simp only [StatementPhrase.symbols, List.forall_mem_append,
      List.forall_mem_singleton] at readable
    obtain ⟨⟨⟨signed, opening⟩, inside⟩, closing⟩ := readable
    have opened := (SignaturePhrase.rewords signed).append
      (Terminal.rewords_sample opening.1 rfl (by decide))
    have filled := opened.append (StatementPhrase.rewords_body body inside)
    exact filled.append (Terminal.rewords_sample closing.1 rfl (by decide))
  | .returnStatement phrase, readable => ReturnPhrase.rewords readable

theorem StatementPhrase.rewords_body : (body : List StatementPhrase) →
    (∀ symbol ∈ StatementPhrase.bodySymbols body, symbol.Readable) →
    Rewords (StatementPhrase.bodySymbols body) (Statement.rows (StatementPhrase.bodyTree body))
  | [], _ => .nil
  | statement :: body, readable => by
    rw [StatementPhrase.bodySymbols, List.forall_mem_append] at readable
    exact (statement.rewords readable.1).append (StatementPhrase.rewords_body body readable.2)

end

/-! ## Texts -/

/-- The tokens of a source text and of the canonical text of its program correspond to each other
    one by one, apart from the parentheses inside expressions. -/
theorem Program.print_keeps_tokens {source : String} {program : Program}
    (parsed : Program.parse source = .ok program) :
    ∃ given printed, tokenize source = .ok given ∧ tokenize program.print = .ok printed ∧
      List.Forall₂ Restates (ungrouped given) (ungrouped printed) := by
  have wellFormed := Program.isWellFormed_of_parse parsed
  obtain ⟨given, phrase, tokenized, symbols, ranges, rfl⟩ :=
    Program.parse_eq_ok_iff_phrase.mp parsed
  have scans := Statement.complete_printAll phrase.tree.body 0 wellFormed []
  rw [List.append_nil] at scans
  obtain ⟨printed, canonical, rows⟩ := Scans.tokenize scans
  refine ⟨given, printed, tokenized, canonical, ?_⟩
  have readable : ∀ symbol ∈ StatementPhrase.bodySymbols phrase.statements, symbol.Readable := by
    intro symbol member
    rw [← ProgramPhrase.symbols, symbols] at member
    obtain ⟨token, isToken, rfl⟩ := List.mem_map.mp member
    exact ⟨spells_of_tokenize tokenized token isToken, ranges token isToken⟩
  have whole := StatementPhrase.rewords_body phrase.statements readable [] [] .nil
  rw [List.append_nil, List.append_nil] at whole
  rw [ungrouped, ungrouped, ← symbols, rows]
  exact whole

/-- Another keyword, other quotes, and one of three pairs of parentheses beside that of a
    signature. -/
theorem Program.print_keeps_tokens_regrouped :
    ∃ program given printed,
      Program.parse
        "function f(b: string): string \x7b const a: string = (('it') - (b - c)); \x7d" =
        .ok program ∧
      program.print =
        "function f(b: string): string \x7b\n    let a: string = \"it\" - (b - c);\n\x7d\n" ∧
      tokenize "function f(b: string): string \x7b const a: string = (('it') - (b - c)); \x7d" =
        .ok given ∧
      tokenize program.print = .ok printed ∧
      List.Forall₂ Restates (ungrouped given) (ungrouped printed) := by
  have parsed : Program.parse
      "function f(b: string): string \x7b const a: string = (('it') - (b - c)); \x7d" =
      .ok ⟨[.functionDeclaration "f" [⟨"b", "string"⟩] "string" [.variableDeclaration "a" "string"
        (.binary .sub (.string "it") (.binary .sub (.identifier "b") (.identifier "c")))]]⟩ := by
    cbv
  obtain ⟨given, printed, kept⟩ := print_keeps_tokens parsed
  exact ⟨_, given, printed, parsed, by cbv, kept⟩

end TinyScript
