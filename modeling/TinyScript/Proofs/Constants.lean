import TinyScript.Proofs.EmitRoundTrip
import TinyScript.Proofs.JsonRoundTrip
import TinyScript.Proofs.RoundNumbers

/-!
# Constants in source text and in what is written for it

The numerals of a source text, of its canonical text and of its C++ text correspond to each other
one by one: all three are the numbers of the program from first to last. A numeral is read as the
nearest binary64 number, and the roundest of the numbers that are read so is written. Thus a
constant keeps its value exactly if it is this number itself, as all constants up to `2 ^ 53` are.
-/

namespace TinyScript

/-! ## Numerals of texts -/

/-- The digits of a symbol that is a numeral. -/
def Symbol.digits? (symbol : Symbol) : Option String :=
  if symbol.kind = .number then some symbol.text else none

/-- The numerals of a source text from first to last, if it is made of tokens. -/
def numerals (source : String) : List String :=
  match tokenize source with
  | .ok tokens => (tokens.map Token.symbol).filterMap Symbol.digits?
  | .error _ => []

/-- The digits of a piece that is a numeral. -/
def Cpp.Piece.digits? : Cpp.Piece → Option String
  | .numeral digits => some digits
  | .word _ | .literal _ | .mark _ | .scope => none

/-- The numerals of a C++ text from first to last, if it is made of pieces. -/
def Cpp.numerals (text : String) : List String :=
  match pieces? .gap (behindInclude text.toList) with
  | some pieces => pieces.filterMap Piece.digits?
  | none => []

theorem numerals_of_scans {text : String} {symbols : List Symbol}
    (scans : Scans text.toList symbols []) : numerals text = symbols.filterMap Symbol.digits? := by
  obtain ⟨tokens, tokenized, rfl⟩ := scans.tokenize
  rw [numerals, tokenized]

theorem Symbol.digits?_of_kind {symbol : Symbol} (h : symbol.kind ≠ .number) :
    symbol.digits? = none :=
  if_neg h

theorem Terminal.digits?_symbol {kind : TokenKind} (h : kind ≠ .number) (terminal : Terminal kind) :
    terminal.symbol.digits? = none :=
  Symbol.digits?_of_kind h

/-! ## Numbers of expressions -/

/-- The numerals of a language can be told from its other tokens. -/
structure Lexis.TellsNumerals {τ : Type} (lexis : Lexis τ) (digits? : τ → Option String) :
    Prop where
  numeral : ∀ text, digits? (lexis.numeral text) = some text
  word : ∀ text, digits? (lexis.word text) = none
  operator : ∀ operator, digits? (lexis.operator operator) = none
  quoted : ∀ value, digits? (lexis.quoted value) = none
  left : digits? (lexis.mark '(') = none
  right : digits? (lexis.mark ')') = none

namespace Lexis.TellsNumerals

variable {τ : Type} {lexis : Lexis τ} {digits? : τ → Option String}

theorem filterMap_group (tells : lexis.TellsNumerals digits?) (bracket : Bool) (tokens : List τ) :
    (lexis.group bracket tokens).filterMap digits? = tokens.filterMap digits? := by
  cases bracket with
  | false => rfl
  | true => simp [Lexis.group, tells.left, tells.right]

/-- The numerals among the tokens of an expression are those of its numbers. -/
theorem filterMap_tokens (tells : lexis.TellsNumerals digits?) (expression : Expression) :
    (lexis.tokens expression).filterMap digits? =
      expression.numbers.map (Binary64.numeral .plain) := by
  induction expression with
  | binary operator left right ihLeft ihRight =>
    rw [Lexis.tokens, Expression.numbers, List.filterMap_append,
      List.filterMap_cons_none (tells.operator operator), tells.filterMap_group,
      tells.filterMap_group, ihLeft, ihRight, List.map_append]
  | identifier name => simp [Lexis.tokens, Expression.numbers, tells.word]
  | number value => simp [Lexis.tokens, Expression.numbers, tells.numeral]
  | string value => simp [Lexis.tokens, Expression.numbers, tells.quoted]

end Lexis.TellsNumerals

theorem sourceLexis_tellsNumerals : sourceLexis.TellsNumerals Symbol.digits? where
  numeral _ := rfl
  word text := by
    apply Symbol.digits?_of_kind
    show TokenKind.ofWord text ≠ .number
    unfold TokenKind.ofWord TokenKind.keyword?
    split <;> decide
  operator _ := rfl
  quoted _ := rfl
  left := rfl
  right := rfl

theorem cppLexis_tellsNumerals : Cpp.cppLexis.TellsNumerals Cpp.Piece.digits? where
  numeral _ := rfl
  word _ := rfl
  operator _ := rfl
  quoted _ := rfl
  left := rfl
  right := rfl

/-! ## Numbers of phrases -/

mutual

theorem ExpressionPhrase.numbers_tree : (phrase : ExpressionPhrase) →
    phrase.tree.numbers = (phrase.symbols.filterMap Symbol.digits?).map nearestNumber
  | .mk first rest => by
    rw [ExpressionPhrase.tree, ExpressionPhrase.numbers_restTree, ExpressionPhrase.symbols,
      TermPhrase.numbers_tree first, List.filterMap_append, List.map_append]

theorem ExpressionPhrase.numbers_restTree (left : Expression) :
    (rest : List (Joined sumOperators TermPhrase)) →
    (ExpressionPhrase.restTree left rest).numbers =
      left.numbers ++
        ((ExpressionPhrase.restSymbols rest).filterMap Symbol.digits?).map nearestNumber
  | [] => (List.append_nil _).symm
  | ⟨operator, _, term⟩ :: rest => by
    have head : operator.terminal.digits? = none := rfl
    rw [ExpressionPhrase.restTree, ExpressionPhrase.numbers_restTree, Expression.numbers,
      TermPhrase.numbers_tree term, ExpressionPhrase.restSymbols, List.cons_append,
      List.filterMap_cons_none head, List.filterMap_append, List.map_append, List.append_assoc]

theorem TermPhrase.numbers_tree : (phrase : TermPhrase) →
    phrase.tree.numbers = (phrase.symbols.filterMap Symbol.digits?).map nearestNumber
  | .mk first rest => by
    rw [TermPhrase.tree, TermPhrase.numbers_restTree, TermPhrase.symbols,
      FactorPhrase.numbers_tree first, List.filterMap_append, List.map_append]

theorem TermPhrase.numbers_restTree (left : Expression) :
    (rest : List (Joined productOperators FactorPhrase)) →
    (TermPhrase.restTree left rest).numbers =
      left.numbers ++
        ((TermPhrase.restSymbols rest).filterMap Symbol.digits?).map nearestNumber
  | [] => (List.append_nil _).symm
  | ⟨operator, _, factor⟩ :: rest => by
    have head : operator.terminal.digits? = none := rfl
    rw [TermPhrase.restTree, TermPhrase.numbers_restTree, Expression.numbers,
      FactorPhrase.numbers_tree factor, TermPhrase.restSymbols, List.cons_append,
      List.filterMap_cons_none head, List.filterMap_append, List.map_append, List.append_assoc]

theorem FactorPhrase.numbers_tree : (phrase : FactorPhrase) →
    phrase.tree.numbers = (phrase.symbols.filterMap Symbol.digits?).map nearestNumber
  | .parentheses left inner right => by
    simp [FactorPhrase.tree, FactorPhrase.symbols, ExpressionPhrase.numbers_tree inner,
      Terminal.digits?_symbol]
  | .literal literal => by
    cases literal with
    | number numeral => rfl
    | string quoted => rfl
    | identifier name => rfl

end

theorem ParametersPhrase.filterMap_symbols (phrase : Option ParametersPhrase) :
    (phrase.elim [] ParametersPhrase.symbols).filterMap Symbol.digits? = [] := by
  cases phrase with
  | none => rfl
  | some phrase =>
    simp [ParametersPhrase.symbols, moreSymbols, ParameterPhrase.symbols, Terminal.digits?_symbol,
      List.filterMap_flatMap]

mutual

theorem StatementPhrase.numbers_tree : (phrase : StatementPhrase) →
    phrase.tree.numbers = (phrase.symbols.filterMap Symbol.digits?).map nearestNumber
  | .variableDeclaration phrase => by
    simp [StatementPhrase.tree, VariablePhrase.tree, Statement.numbers, StatementPhrase.symbols,
      VariablePhrase.symbols, Terminal.digits?_symbol, phrase.value.numbers_tree]
  | .functionDeclaration signature left body right => by
    simp [StatementPhrase.tree, SignaturePhrase.tree, Statement.numbers, StatementPhrase.symbols,
      SignaturePhrase.symbols, Terminal.digits?_symbol, StatementPhrase.numbers_bodyTree body,
      ParametersPhrase.filterMap_symbols]
  | .returnStatement ⟨keyword, argument, semicolon⟩ => by
    cases argument with
    | none => rfl
    | some argument =>
      simp [StatementPhrase.tree, ReturnPhrase.tree, Statement.numbers, StatementPhrase.symbols,
        ReturnPhrase.symbols, Terminal.digits?_symbol, argument.numbers_tree]

theorem StatementPhrase.numbers_bodyTree : (phrases : List StatementPhrase) →
    Statement.allNumbers (StatementPhrase.bodyTree phrases) =
      ((StatementPhrase.bodySymbols phrases).filterMap Symbol.digits?).map nearestNumber
  | [] => rfl
  | phrase :: phrases => by
    rw [StatementPhrase.bodyTree, Statement.allNumbers, StatementPhrase.bodySymbols,
      List.filterMap_append, List.map_append, StatementPhrase.numbers_tree phrase,
      StatementPhrase.numbers_bodyTree phrases]

end

/-- The numerals of a source text are read as the numbers of the program, and each is in range. -/
theorem Program.numbers_of_parse {source : String} {program : Program}
    (parsed : Program.parse source = .ok program) :
    program.numbers = (numerals source).map nearestNumber ∧
      ∀ digits ∈ numerals source, ∃ x, Binary64.ofDigits? digits.toList = some x := by
  obtain ⟨tokens, phrase, tokenized, symbols, ranges, rfl⟩ :=
    Program.parse_eq_ok_iff_phrase.mp parsed
  have row : numerals source = phrase.symbols.filterMap Symbol.digits? := by
    rw [numerals, tokenized, symbols]
  refine ⟨?_, ?_⟩
  · rw [row]
    exact StatementPhrase.numbers_bodyTree phrase.statements
  · intro digits member
    rw [row, symbols, List.mem_filterMap] at member
    obtain ⟨symbol, inside, isDigits⟩ := member
    obtain ⟨token, tokenInside, rfl⟩ := List.mem_map.mp inside
    obtain ⟨isNumber, same⟩ := Option.ite_none_right_eq_some.mp isDigits
    cases same
    exact ranges token tokenInside isNumber

/-! ## Numbers of canonical text -/

mutual

theorem Statement.filterMap_row : (statement : Statement) →
    statement.row.filterMap Symbol.digits? = statement.numbers.map (Binary64.numeral .plain)
  | .variableDeclaration name typeName value => by
    simp [Statement.row, Statement.numbers, Symbol.digits?_of_kind,
      sourceLexis_tellsNumerals.filterMap_tokens value]
  | .functionDeclaration name parameters returnType body => by
    simp [Statement.row, functionRow, Statement.numbers, Symbol.digits?_of_kind,
      ParametersPhrase.filterMap_symbols, Statement.filterMap_rows body]
  | .returnStatement none => rfl
  | .returnStatement (some argument) => by
    simp [Statement.row, Statement.numbers, Symbol.digits?_of_kind,
      sourceLexis_tellsNumerals.filterMap_tokens argument]

theorem Statement.filterMap_rows : (body : List Statement) →
    (Statement.rows body).filterMap Symbol.digits? =
      (Statement.allNumbers body).map (Binary64.numeral .plain)
  | [] => rfl
  | statement :: body => by
    rw [Statement.rows, Statement.allNumbers, List.filterMap_append, List.map_append,
      Statement.filterMap_row statement, Statement.filterMap_rows body]

end

theorem Program.numerals_print {program : Program} (wellFormed : program.isWellFormed = true) :
    numerals program.print = program.numbers.map (Binary64.numeral .plain) := by
  have scans := Statement.complete_printAll program.body 0 wellFormed []
  rw [List.append_nil] at scans
  exact (numerals_of_scans scans).trans (Statement.filterMap_rows program.body)

/-! ## Numbers of C++ text -/

namespace Cpp

@[simp]
theorem Piece.digits?_word (text : String) : (Piece.word text).digits? = none :=
  rfl

@[simp]
theorem Piece.digits?_mark (char : Char) : (Piece.mark char).digits? = none :=
  rfl

theorem filterMap_typeRow (sourceType : String) :
    (typeRow sourceType).filterMap Piece.digits? = [] := by
  unfold typeRow
  split <;> rfl

theorem filterMap_declarationRow (name sourceType : String) (value : Expression) :
    (declarationRow name sourceType value).filterMap Piece.digits? =
      value.numbers.map (Binary64.numeral .plain) := by
  simp [declarationRow, List.filterMap_cons, filterMap_typeRow,
    cppLexis_tellsNumerals.filterMap_tokens]

theorem filterMap_flatMap {row : Statement → List Piece} {body : List Statement}
    (each : ∀ statement ∈ body, (row statement).filterMap Piece.digits? =
      statement.numbers.map (Binary64.numeral .plain)) :
    (body.flatMap row).filterMap Piece.digits? =
      (Statement.allNumbers body).map (Binary64.numeral .plain) := by
  induction body with
  | nil => rfl
  | cons statement body ih =>
    obtain ⟨first, others⟩ := List.forall_mem_cons.mp each
    rw [List.flatMap_cons, List.filterMap_append, first, ih others, Statement.allNumbers,
      List.map_append]

theorem filterMap_innerRow {owner text : String} {statement : Statement}
    (emitted : innerText owner statement = .ok text) :
    (innerRow statement).filterMap Piece.digits? =
      statement.numbers.map (Binary64.numeral .plain) := by
  cases statement with
  | variableDeclaration name sourceType value =>
    rw [Statement.numbers]
    exact filterMap_declarationRow name sourceType value
  | functionDeclaration name parameters returnType body => cases emitted
  | returnStatement argument =>
    cases argument with
    | none => rfl
    | some argument =>
      simp [innerRow, returnRow, Statement.numbers, List.filterMap_cons,
        cppLexis_tellsNumerals.filterMap_tokens]

theorem filterMap_parameterRow (parameter : Parameter) :
    (parameterRow parameter).filterMap Piece.digits? = [] := by
  rw [parameterRow, List.filterMap_append, filterMap_typeRow]
  rfl

theorem filterMap_parameters (parameters : List Parameter) :
    ([.mark ','].intercalate (parameters.map parameterRow)).filterMap Piece.digits? = [] := by
  induction parameters with
  | nil => rfl
  | cons first rest ih =>
    cases rest with
    | nil =>
      rw [List.map_singleton, List.intercalate_singleton]
      exact filterMap_parameterRow first
    | cons next rest =>
      rw [List.map_cons, List.map_cons, List.intercalate_cons_cons, ← List.map_cons,
        List.filterMap_append, List.filterMap_append, filterMap_parameterRow, ih]
      rfl

theorem filterMap_outerRow {indent text : String} {statement : Statement}
    (emitted : outerText indent statement = .ok text) :
    (outerRow statement).filterMap Piece.digits? =
      statement.numbers.map (Binary64.numeral .plain) := by
  cases statement with
  | variableDeclaration name sourceType value =>
    rw [Statement.numbers]
    exact filterMap_declarationRow name sourceType value
  | functionDeclaration name parameters returnType body =>
    obtain ⟨line, lines, -⟩ := functionText_eq_ok emitted
    have inner : (body.flatMap innerRow).filterMap Piece.digits? =
        (Statement.allNumbers body).map (Binary64.numeral .plain) :=
      filterMap_flatMap fun statement member => filterMap_innerRow (lines statement member)
    simp [outerRow, functionRow, Statement.numbers, List.filterMap_cons, filterMap_typeRow,
      filterMap_parameters, inner]
  | returnStatement argument => cases emitted

theorem numerals_emit {indent text : String} {program : Program}
    (blank : ∀ char ∈ indent.toList, isBlank char = true)
    (wellFormed : program.isWellFormed = true) (emitted : emit indent program = .ok text) :
    numerals text = program.numbers.map (Binary64.numeral .plain) := by
  obtain ⟨pieces, texts⟩ := pieces?_emit blank wellFormed emitted
  rw [numerals, pieces]
  apply filterMap_flatMap
  intro statement member
  obtain ⟨text, emitted⟩ := texts statement member
  exact filterMap_outerRow emitted

end Cpp

/-! ## The values of constants -/

/-- The whole number that a row of digits denotes. -/
def denoted (digits : String) : Nat :=
  Nat.ofDigitChars 10 digits.toList 0

/-- What is written for a numeral: the nearest number, as a numeral again. -/
def rewritten (digits : String) : String :=
  (nearestNumber digits).numeral .plain

theorem denoted_toString (number : Nat) : denoted (toString number) = number := by
  rw [denoted, Nat.toString_eq_repr, Nat.repr_eq_ofList_toDigits, String.toList_ofList,
    Nat.ofDigitChars_ten_toDigits]

/-- The roundest number is written for a numeral. -/
theorem exists_rewritten_eq {digits : String} {x : Binary64}
    (read : Binary64.ofDigits? digits.toList = some x) :
    ∃ number, x.IsRoundest number ∧ rewritten digits = toString number := by
  obtain ⟨sign, whole⟩ := Binary64.isIntegral_of_ofDigits? read
  rw [rewritten, nearestNumber, read, Option.getD_some]
  exact Binary64.exists_numeral_eq sign whole

/-- Every row of digits in range is accepted as a constant. -/
theorem Program.parse_constant {digits : String} {x : Binary64} (nonempty : digits.toList ≠ [])
    (all : ∀ char ∈ digits.toList, char.isDigit = true)
    (read : Binary64.ofDigits? digits.toList = some x) :
    Program.parse ("let x: number = " ++ digits ++ ";") = .ok (declaring (.number x)) ∧
      numerals ("let x: number = " ++ digits ++ ";") = [digits] := by
  have named := complete_let.append_writes
    (Lexis.writes_word (by decide : isWord "x".toList = true))
  have typed := (named.append complete_colon rfl).append_writes
    (Lexis.writes_word (by decide : isWord "number".toList = true))
  have numeral : sourceLexis.Writes digits.toList [⟨.number, digits⟩] :=
    fun _ ends => sourceLexis.scans_numeral nonempty all ends
  have valued := (typed.append complete_assign rfl).append_writes numeral
  have scans : Scans ("let x: number = " ++ digits ++ ";").toList
      [⟨.varKeyword, "let"⟩, ⟨.identifier, "x"⟩, ⟨.colon, ":"⟩, ⟨.typeKeyword, "number"⟩,
        ⟨.assign, "="⟩, ⟨.number, digits⟩, ⟨.semicolon, ";"⟩] [] := by
    have whole := valued.append (Lexis.complete_mark ';' (by decide)) rfl []
    rw [List.append_nil] at whole
    rw [String.toList_append, String.toList_append]
    exact whole
  refine ⟨?_, numerals_of_scans scans⟩
  obtain ⟨tokens, tokenized, symbols⟩ := scans.tokenize
  refine Program.parse_eq_ok_iff_phrase.mpr ⟨tokens, ⟨[.variableDeclaration ⟨⟨"let"⟩, ⟨"x"⟩, ⟨":"⟩,
    ⟨"number"⟩, ⟨"="⟩, .mk (.mk (.literal (.number ⟨digits⟩)) []) [], ⟨";"⟩⟩]⟩, tokenized,
    symbols.symm, ?_, ?_⟩
  · have ranges : ∀ symbol ∈ tokens.map Token.symbol, symbol.InRange := by
      rw [symbols]
      simp (disch := decide) only [List.forall_mem_cons, Symbol.inRange_of_kind, true_and]
      exact ⟨fun _ => ⟨x, read⟩, List.forall_mem_nil _⟩
    intro token member
    exact ranges token.symbol (List.mem_map_of_mem member)
  · have nearest : nearestNumber digits = x := by rw [nearestNumber, read, Option.getD_some]
    rw [← nearest]
    rfl

/-- Canonical text and C++ text have a numeral for each numeral of the source, in the same order. It
    is written without a zero at its start, and it denotes the roundest of the numbers that are read
    like the one in the source. So a constant keeps its value exactly if it is this number, which
    holds of all constants up to `2 ^ 53`. -/
theorem Program.constants_kept_iff_roundest {source : String} {program : Program}
    (parsed : Program.parse source = .ok program) :
    numerals program.print = (numerals source).map rewritten ∧
    (∀ indent text, (∀ char ∈ indent.toList, isBlank char = true) →
      Cpp.emit indent program = .ok text →
      Cpp.numerals text = (numerals source).map rewritten) ∧
    ∀ digits ∈ numerals source, ∃ x, Binary64.ofDigits? digits.toList = some x ∧
      (∃ number, x.IsRoundest number ∧ rewritten digits = toString number) ∧
      (denoted (rewritten digits) = denoted digits ↔ x.IsRoundest (denoted digits)) ∧
      (denoted digits ≤ 2 ^ 53 → denoted (rewritten digits) = denoted digits) := by
  have wellFormed := Program.isWellFormed_of_parse parsed
  obtain ⟨numbers, ranges⟩ := Program.numbers_of_parse parsed
  have written : program.numbers.map (Binary64.numeral .plain) =
      (numerals source).map rewritten := by
    rw [numbers, List.map_map]
    rfl
  refine ⟨(Program.numerals_print wellFormed).trans written, ?_, ?_⟩
  · intro indent text blank emitted
    exact (Cpp.numerals_emit blank wellFormed emitted).trans written
  · intro digits member
    obtain ⟨x, read⟩ := ranges digits member
    obtain ⟨number, roundest, again⟩ := exists_rewritten_eq read
    have kept : denoted (rewritten digits) = denoted digits ↔ x.IsRoundest (denoted digits) := by
      rw [again, denoted_toString]
      constructor
      · intro same
        rwa [← same]
      · intro itself
        exact roundest.unique itself
    refine ⟨x, read, ⟨number, roundest, again⟩, kept, ?_⟩
    intro small
    exact kept.mpr (Binary64.isRoundest_of_le read small)

/-- `2 ^ 53 + 1` is written as `2 ^ 53`. The number `2 ^ 60` is not kept either, although it is read
    without rounding. -/
theorem Program.constants_kept_iff_roundest_lost :
    (∃ program text, Program.parse "let x: number = 9007199254740993;" = .ok program ∧
      Cpp.emit Cpp.defaultIndent program = .ok text ∧
      numerals program.print = ["9007199254740992"] ∧
      Cpp.numerals text = ["9007199254740992"]) ∧
    ∃ program again, Program.parse "let x: number = 1152921504606846976;" = .ok program ∧
      numerals program.print = [again] ∧ denoted again ≠ 1152921504606846976 := by
  constructor
  · obtain ⟨x, read, sign, units⟩ :=
      Binary64.exists_ofNat?_of_binade 9007199254740993 1 (by decide) (by decide) (by decide)
    have rounded : roundHalfEven 9007199254740993 (2 ^ 1) * 2 ^ 1 = 9007199254740992 := by decide
    rw [rounded] at units
    have digits : Binary64.ofDigits? "9007199254740993".toList = some x := read
    obtain ⟨parsed, written⟩ := parse_constant (by decide) (List.all_eq_true.mp (by decide)) digits
    obtain ⟨printed, emitted, each⟩ := constants_kept_iff_roundest parsed
    obtain ⟨y, readY, ⟨number, roundest, again⟩, -⟩ :=
      each "9007199254740993" (by rw [written]; exact List.mem_singleton_self _)
    rw [digits] at readY
    cases readY
    obtain rfl := roundest.unique (Binary64.isRoundest_of_lt sign units (by decide))
    have blank : ∀ char ∈ Cpp.defaultIndent.toList, isBlank char = true :=
      List.all_eq_true.mp (by decide)
    rw [written, List.map_singleton, again] at printed emitted
    exact ⟨_, _, parsed, rfl, printed, emitted _ _ blank rfl⟩
  · obtain ⟨x, read, sign, units⟩ :=
      Binary64.exists_ofNat?_of_binade 1152921504606846976 8 (by decide) (by decide) (by decide)
    have exact : roundHalfEven 1152921504606846976 (2 ^ 8) * 2 ^ 8 = 1152921504606846976 := by
      decide
    rw [exact] at units
    have digits : Binary64.ofDigits? "1152921504606846976".toList = some x := read
    obtain ⟨parsed, written⟩ := parse_constant (by decide) (List.all_eq_true.mp (by decide)) digits
    obtain ⟨printed, -, each⟩ := constants_kept_iff_roundest parsed
    obtain ⟨y, readY, -, kept, -⟩ :=
      each "1152921504606846976" (by rw [written]; exact List.mem_singleton_self _)
    rw [digits] at readY
    cases readY
    rw [written, List.map_singleton] at printed
    refine ⟨_, _, parsed, printed, ?_⟩
    intro same
    -- A number with three zeros at its end is read alike.
    have reads : Binary64.ofNat? (1152921504606847 * 10 ^ 3) = some x :=
      (Binary64.readBy_iff sign _ _).mp
        (Binary64.readBy_of_near units (by decide) (by decide) (by decide))
    have zeros := (kept.mp same).zeros _ 3 reads (Nat.dvd_mul_left _ _)
    have none : ¬ 10 ^ 3 ∣ denoted "1152921504606846976" := by decide
    exact none zeros

end TinyScript
