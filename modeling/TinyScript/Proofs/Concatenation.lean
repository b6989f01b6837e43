import TinyScript.Proofs.Moved

/-!
# Programs one below the other

A program and a text below it are read one after the other: the statements of the program come
first, and then everything is as if the text stood alone, up to the places that are reported. This
is so because a program leaves nothing open. In particular no slash with a star behind it stands in
it as two operators, which the text below could turn into a comment: an operator of a program is
followed by an operand.
-/

namespace TinyScript

/-! ## Operators and operands -/

/-- Every operator in a row of symbols stands before an operand. -/
def OperatorsJoin : List Symbol → Prop
  | [] => True
  | symbol :: rest => (symbol.kind = .operator → StartsIn operandKinds rest) ∧ OperatorsJoin rest

theorem OperatorsJoin.append {first second : List Symbol} (h : OperatorsJoin first)
    (h' : OperatorsJoin second) : OperatorsJoin (first ++ second) := by
  induction first with
  | nil => exact h'
  | cons symbol rest ih =>
    obtain ⟨joins, more⟩ := h
    refine ⟨?_, ih more⟩
    intro operator
    exact (joins operator).append second

theorem operatorsJoin_terminal {kind : TokenKind} {terminal : Terminal kind} {rest : List Symbol}
    (other : kind ≠ .operator) :
    OperatorsJoin (terminal.symbol :: rest) ↔ OperatorsJoin rest := by
  simp [OperatorsJoin, Terminal.symbol, other]

theorem operatorsJoin_operator {operator : Operator} {operand : List Symbol}
    (starts : StartsIn operandKinds operand) (h : OperatorsJoin operand) :
    OperatorsJoin (operator.terminal :: operand) :=
  ⟨fun _ => starts, h⟩

mutual

theorem ExpressionPhrase.operatorsJoin : ∀ phrase : ExpressionPhrase, OperatorsJoin phrase.symbols
  | .mk first rest => by
    rw [ExpressionPhrase.symbols]
    exact first.operatorsJoin.append (ExpressionPhrase.rest_operatorsJoin rest)

theorem ExpressionPhrase.rest_operatorsJoin : ∀ rest : List (Joined sumOperators TermPhrase),
    OperatorsJoin (ExpressionPhrase.restSymbols rest)
  | [] => trivial
  | ⟨operator, allowed, term⟩ :: rest => by
    rw [ExpressionPhrase.restSymbols]
    exact (operatorsJoin_operator term.startsIn term.operatorsJoin).append
      (ExpressionPhrase.rest_operatorsJoin rest)

theorem TermPhrase.operatorsJoin : ∀ phrase : TermPhrase, OperatorsJoin phrase.symbols
  | .mk first rest => by
    rw [TermPhrase.symbols]
    exact first.operatorsJoin.append (TermPhrase.rest_operatorsJoin rest)

theorem TermPhrase.rest_operatorsJoin : ∀ rest : List (Joined productOperators FactorPhrase),
    OperatorsJoin (TermPhrase.restSymbols rest)
  | [] => trivial
  | ⟨operator, allowed, factor⟩ :: rest => by
    rw [TermPhrase.restSymbols]
    exact (operatorsJoin_operator factor.startsIn factor.operatorsJoin).append
      (TermPhrase.rest_operatorsJoin rest)

theorem FactorPhrase.operatorsJoin : ∀ phrase : FactorPhrase, OperatorsJoin phrase.symbols
  | .parentheses left inner right => by
    rw [FactorPhrase.symbols]
    refine OperatorsJoin.append ?_ ((operatorsJoin_terminal (by decide)).mpr trivial)
    exact (operatorsJoin_terminal (by decide)).mpr inner.operatorsJoin
  | .literal literal => by
    rw [FactorPhrase.symbols]
    cases literal <;> exact (operatorsJoin_terminal (by decide)).mpr trivial

end

theorem VariablePhrase.operatorsJoin (phrase : VariablePhrase) : OperatorsJoin phrase.symbols := by
  unfold VariablePhrase.symbols
  refine OperatorsJoin.append (OperatorsJoin.append ?_ phrase.value.operatorsJoin) ?_
  · simp (disch := decide) only [operatorsJoin_terminal]
    trivial
  · exact (operatorsJoin_terminal (by decide)).mpr trivial

theorem ReturnPhrase.operatorsJoin (phrase : ReturnPhrase) : OperatorsJoin phrase.symbols := by
  unfold ReturnPhrase.symbols
  refine OperatorsJoin.append (OperatorsJoin.append ?_ ?_) ?_
  · exact (operatorsJoin_terminal (by decide)).mpr trivial
  · cases phrase.argument with
    | none => trivial
    | some argument => exact argument.operatorsJoin
  · exact (operatorsJoin_terminal (by decide)).mpr trivial

theorem ParameterPhrase.operatorsJoin (phrase : ParameterPhrase) :
    OperatorsJoin phrase.symbols := by
  simp (disch := decide) only [ParameterPhrase.symbols, operatorsJoin_terminal]
  trivial

theorem ParametersPhrase.operatorsJoin (phrase : ParametersPhrase) :
    OperatorsJoin phrase.symbols := by
  obtain ⟨first, rest⟩ := phrase
  refine first.operatorsJoin.append ?_
  induction rest with
  | nil => trivial
  | cons link rest ih =>
    obtain ⟨comma, parameter⟩ := link
    refine OperatorsJoin.append ?_ ih
    exact (operatorsJoin_terminal (by decide)).mpr parameter.operatorsJoin

theorem SignaturePhrase.operatorsJoin (phrase : SignaturePhrase) :
    OperatorsJoin phrase.symbols := by
  unfold SignaturePhrase.symbols
  refine OperatorsJoin.append (OperatorsJoin.append ?_ ?_) ?_
  · simp (disch := decide) only [operatorsJoin_terminal]
    trivial
  · cases phrase.parameters with
    | none => trivial
    | some parameters => exact parameters.operatorsJoin
  · simp (disch := decide) only [operatorsJoin_terminal]
    trivial

mutual

theorem StatementPhrase.operatorsJoin : ∀ phrase : StatementPhrase, OperatorsJoin phrase.symbols
  | .variableDeclaration phrase => by
    rw [StatementPhrase.symbols]
    exact phrase.operatorsJoin
  | .functionDeclaration signature left body right => by
    rw [StatementPhrase.symbols]
    refine OperatorsJoin.append (OperatorsJoin.append (OperatorsJoin.append
      signature.operatorsJoin ?_) (StatementPhrase.body_operatorsJoin body)) ?_
    · exact (operatorsJoin_terminal (by decide)).mpr trivial
    · exact (operatorsJoin_terminal (by decide)).mpr trivial
  | .returnStatement phrase => by
    rw [StatementPhrase.symbols]
    exact phrase.operatorsJoin

theorem StatementPhrase.body_operatorsJoin : ∀ body : List StatementPhrase,
    OperatorsJoin (StatementPhrase.bodySymbols body)
  | [] => trivial
  | statement :: body => by
    rw [StatementPhrase.bodySymbols]
    exact statement.operatorsJoin.append (StatementPhrase.body_operatorsJoin body)

end

/-! ## Tokens of a text with more below it -/

theorem GapPiece.append_newline {piece rest : List Char} (h : GapPiece piece rest)
    (more : List Char) : GapPiece piece (rest ++ '\n' :: more) := by
  cases h with
  | blanks nonempty all => exact .blanks nonempty all
  | lineComment inside ends =>
    refine .lineComment inside ?_
    cases rest with
    | nil => simp
    | cons char rest => exact ends
  | blockComment first => exact .blockComment first

theorem Gap.append_newline {gap rest : List Char} (h : Gap gap rest) (more : List Char) :
    Gap gap (rest ++ '\n' :: more) := by
  induction h with
  | nil rest => exact .nil _
  | cons first others ih =>
    refine .cons ?_ ih
    have extended := first.append_newline more
    rwa [List.append_assoc] at extended

theorem LongestToken.append_newline {kind : TokenKind} {word rest : List Char}
    (h : LongestToken kind word rest) (more : List Char) :
    LongestToken kind word (rest ++ '\n' :: more) := by
  -- A character that goes on with the word would have made it longer.
  have stops {p : Char → Bool} (newline : p '\n' = false)
      (longer : ∀ char, p char = true → ∃ other, Spells other (word ++ [char])) :
      ∀ char ∈ (rest ++ '\n' :: more).head?, p char = false := by
    intro char member
    cases rest with
    | nil =>
      cases member
      exact newline
    | cons first rest =>
      cases member
      by_contra goes
      obtain ⟨other, spells⟩ := longer char (by simpa using goes)
      have bounded := h.longest other (word ++ [char]) ⟨rest, by simp⟩ spells
      simp at bounded
  apply front_eq_token_iff.mp
  have spells := h.spells
  cases spells with
  | number nonempty all =>
    refine front_of_spells (.number nonempty all) (stops (by decide) ?_)
    intro char (digit : char.isDigit = true)
    refine ⟨.number, .number (by simp) ?_⟩
    simpa [or_imp, forall_and] using And.intro all digit
  | string isQuote free =>
    exact front_of_spells (.string isQuote free) (by simp [Parted, goesOn])
  | @word first start word all =>
    refine front_of_spells (.word start all) ?_
    rw [Parted, goesOn_ofWord]
    refine stops (by decide) ?_
    intro char part
    refine ⟨_, @Spells.word first start (word ++ [char]) ?_⟩
    simpa [or_imp, forall_and] using And.intro all part
  | symbol isSymbol => exact front_of_symbol isSymbol _

theorem GapFree.append_newline {kind : TokenKind} {word rest : List Char}
    (free : GapFree (word ++ rest)) (spells : Spells kind word)
    (unopened : ¬ ['/', '*'] <+: word ++ rest) (more : List Char) :
    GapFree (word ++ (rest ++ '\n' :: more)) := by
  cases word with
  | nil => exact absurd rfl spells.ne_nil
  | cons char word =>
    obtain ⟨blank, operator⟩ := spells.first
    -- What follows a slash is not changed by a line feed at the end.
    have second (next : Char) (other : next ≠ '\n')
        (opens : ['/', next] <+: char :: word ++ (rest ++ '\n' :: more)) :
        ['/', next] <+: char :: word ++ rest := by
      obtain ⟨slash, follows⟩ := List.cons_prefix_cons.mp opens
      subst slash
      obtain ⟨-, rfl⟩ := operator rfl
      cases rest with
      | nil =>
        obtain ⟨newline, -⟩ := List.cons_prefix_cons.mp follows
        exact absurd newline other
      | cons first rest =>
        obtain ⟨rfl, -⟩ := List.cons_prefix_cons.mp follows
        exact ⟨rest, rfl⟩
    refine ⟨?_, ?_, ?_⟩
    · intro first member
      cases member
      exact blank
    · intro opens
      exact free.noLineComment (second '/' (by decide) opens)
    · intro behind same
      exact absurd (second '*' (by decide) ⟨behind, same.symm⟩) unopened

/-- A star at the front of a text is an operator. -/
theorem Decomposes.operator_of_star {before rest last : List Char} {tokens : List Token}
    (h : Decomposes before ('*' :: rest) tokens last []) :
    ∃ token more, tokens = token :: more ∧ token.kind = .operator := by
  have free : GapFree (['*'] ++ rest) := by
    refine ⟨by simp; decide, ?_, ?_⟩
    · intro opens
      simp at opens
    · intro behind same
      cases same
  have longest : LongestToken .operator ['*'] rest :=
    front_eq_token_iff.mp (front_of_symbol rfl rest)
  obtain ⟨lexemes, rfl, feed⟩ := Cursor.feed_of_decomposes h
  have next := Cursor.next_of_longest (.nil _) free longest (.behind before)
  rw [Cursor.feed_nil, List.append_nil] at feed
  have found := Cursor.feed_of_next next
  rw [List.nil_append, List.singleton_append, feed] at found
  rw [(Feed.mk.inj found).1]
  exact ⟨_, _, rfl, rfl⟩

/-- The tokens of a text in which every operator joins stay the same if something stands below
    it. -/
theorem Cursor.feed_append_newline {before text last behind : List Char} {tokens : List Token}
    (h : Decomposes before text tokens last behind) (finished : behind = [])
    (joins : OperatorsJoin (tokens.map Token.symbol)) (more : List Char) :
    ∃ lexemes : List Lexeme, lexemes.map Lexeme.token = tokens ∧
      (Cursor.mk (text ++ '\n' :: more) (.behind before)).feed =
        ⟨lexemes ++ (Cursor.mk more (.behind (before ++ text ++ ['\n']))).feed.lexemes,
          (Cursor.mk more (.behind (before ++ text ++ ['\n']))).feed.ending⟩ := by
  induction h with
  | @gap before gap rest skipped free =>
    subst finished
    have newline : isBlank '\n' = true := by decide
    have extended := skipped.append_newline more
    refine ⟨[], rfl, ?_⟩
    rw [List.nil_append] at extended
    rw [List.append_nil, Cursor.feed_gap extended, Cursor.feed_of_blank newline,
      ← Position.behind_append, ← Position.behind_concat]
    rfl
  | @token before gap word rest last behind kind tokens skipped free longest others ih =>
    obtain ⟨first, joins⟩ := joins
    obtain ⟨lexemes, rfl, feed⟩ := ih finished joins
    have unopened : ¬ ['/', '*'] <+: word ++ rest := by
      intro opens
      cases word with
      | nil => exact longest.spells.ne_nil rfl
      | cons char word =>
        obtain ⟨slash, follows⟩ := List.cons_prefix_cons.mp opens
        obtain ⟨rfl, rfl⟩ := longest.spells.first.2 slash.symm
        obtain ⟨inside, rfl⟩ : ['*'] <+: rest := follows
        subst finished
        obtain ⟨token, tokens, head, operator⟩ := others.operator_of_star
        obtain ⟨symbol, symbols, same, operand⟩ := first rfl
        rw [head, List.map_cons] at same
        obtain ⟨rfl, -⟩ := List.cons.inj same
        rw [Token.symbol, operator] at operand
        simp [operandKinds] at operand
    refine ⟨⟨⟨kind, String.ofList word, .behind (before ++ gap)⟩,
      ⟨rest ++ '\n' :: more, .behind (before ++ gap ++ word)⟩⟩ :: lexemes, rfl, ?_⟩
    have extended := skipped.append_newline more
    rw [List.append_assoc] at extended
    have next := Cursor.next_of_longest extended (free.append_newline longest.spells unopened more)
      (longest.append_newline more) (.behind before)
    rw [← Position.behind_append, ← Position.behind_append, ← List.append_assoc before gap word]
      at next
    have place : before ++ (gap ++ (word ++ rest)) ++ ['\n'] =
        before ++ gap ++ word ++ rest ++ ['\n'] := by
      simp only [List.append_assoc]
    have whole : gap ++ (word ++ rest) ++ '\n' :: more =
        gap ++ (word ++ (rest ++ '\n' :: more)) := by
      simp only [List.append_assoc]
    rw [whole, place, Cursor.feed_of_next next, feed]
    rfl

/-! ## Readings that go on -/

/-- Readings that do not differ. -/
def FeedRelation.same : FeedRelation := ⟨Eq, Eq, Eq, fun _ => False⟩

theorem FeedRelation.same_lawful : FeedRelation.same.Lawful where
  lookahead := by
    rintro feed _ rfl
    rfl
  symbol := by
    rintro token _ rfl
    rfl
  eat := by
    rintro feed _ kind rfl
    cases eaten : Parser.eat kind feed with
    | error failure => exact .error rfl
    | ok answer =>
      obtain ⟨token, behind⟩ := answer
      have shorter := Parser.eat_length eaten
      exact .ok rfl rfl (by omega) (by omega)
  unexpected := by
    rintro feed _ expected rfl
    rfl
  tooLarge := by
    rintro token _ feed _ rfl rfl
    rfl

/-- Bounds above the number of tokens make no difference. -/
theorem statementsToEnd_of_bounds {feed : Feed} {bound bound' rounds rounds' : Nat}
    (short : feed.lexemes.length ≤ bound) (short' : feed.lexemes.length ≤ bound')
    (within : feed.lexemes.length < rounds) (within' : feed.lexemes.length < rounds') :
    Parser.statementsToEnd (Parser.statement bound) rounds feed =
      Parser.statementsToEnd (Parser.statement bound') rounds' feed := by
  have statements := (FeedRelation.same_lawful.relates_statement bound bound').mono
    (Nat.succ_le_succ short) (Nat.succ_le_succ short')
  have outcome := FeedRelation.same_lawful.relates_statementsToEnd statements rounds rounds' within
    within' rfl (Nat.lt_succ_self _) (Nat.lt_succ_self _)
  generalize Parser.statementsToEnd (Parser.statement bound) rounds feed = result,
    Parser.statementsToEnd (Parser.statement bound') rounds' feed = result' at outcome
  cases outcome with
  | ok same related less less' =>
    obtain rfl := same
    obtain rfl := related
    rfl
  | error related =>
    obtain rfl := related
    rfl
  | stopped h => exact absurd h id

/-- Statements that are passed come before those that are read behind them. -/
theorem statementsToEnd_of_passes {bound rounds : Nat} {phrases : List StatementPhrase}
    {feed mid : Feed} (passed : feed.Passes (StatementPhrase.bodySymbols phrases) mid)
    (short : feed.lexemes.length ≤ bound) (within : feed.lexemes.length < rounds) :
    Parser.statementsToEnd (Parser.statement bound) rounds feed =
      (Parser.statementsToEnd (Parser.statement bound) rounds mid).map
        (Prod.map (StatementPhrase.bodyTree phrases ++ ·) id) := by
  induction phrases generalizing feed rounds with
  | nil =>
    obtain rfl : feed = mid := passed
    cases Parser.statementsToEnd (Parser.statement bound) rounds feed <;> rfl
  | cons phrase phrases ih =>
    obtain ⟨next, first, others⟩ := Feed.passes_append.mp passed
    have shorter := first.length_lt phrase.startsIn.ne_nil
    have reads := (statement_recognizes bound short phrase.tree next).mpr
      ⟨phrase, first, rfl, trivial⟩
    have notLonger := others.length
    obtain ⟨lexeme, rest, lexemes⟩ := List.exists_cons_of_length_pos (Nat.zero_lt_of_lt shorter)
    cases rounds with
    | zero => omega
    | succ rounds =>
      have goesOn := ih others (by omega) (show next.lexemes.length < rounds by omega)
      have more : Parser.statementsToEnd (Parser.statement bound) (rounds + 1) mid =
          Parser.statementsToEnd (Parser.statement bound) rounds mid :=
        statementsToEnd_of_bounds (by omega) (by omega) (by omega) (by omega)
      rw [more, Parser.statementsToEnd, Parser.peek_bind, lexemes]
      change (Parser.statement bound feed >>= fun answer =>
        Parser.statementsToEnd (Parser.statement bound) rounds answer.2 >>= fun others =>
          .ok (answer.1 :: others.1, others.2)) = _
      rw [reads]
      change (Parser.statementsToEnd (Parser.statement bound) rounds next >>= fun others =>
        .ok (phrase.tree :: others.1, others.2)) = _
      rw [goesOn]
      cases Parser.statementsToEnd (Parser.statement bound) rounds mid <;> rfl

theorem program_eq_map (feed : Feed) :
    Parser.program feed = (Parser.statementsToEnd (Parser.statement (feed.lexemes.length + 1))
      (feed.lexemes.length + 1) feed).map (Prod.map Program.mk id) := by
  change (Parser.statementsToEnd (Parser.statement (feed.lexemes.length + 1))
    (feed.lexemes.length + 1) feed >>= fun answer => .ok (Program.mk answer.1, answer.2)) = _
  cases Parser.statementsToEnd (Parser.statement (feed.lexemes.length + 1))
    (feed.lexemes.length + 1) feed <;> rfl

/-- A program with another one behind it. -/
def Program.append (first second : Program) : Program :=
  ⟨first.body ++ second.body⟩

theorem program_of_passes {phrase : ProgramPhrase} {feed mid : Feed}
    (passed : feed.Passes phrase.symbols mid) :
    Parser.program feed = (Parser.program mid).map (Prod.map phrase.tree.append id) := by
  have notLonger := passed.length
  have first := statementsToEnd_of_passes passed (Nat.le_succ _) (Nat.lt_succ_self _)
  have second : Parser.statementsToEnd (Parser.statement (feed.lexemes.length + 1))
        (feed.lexemes.length + 1) mid =
      Parser.statementsToEnd (Parser.statement (mid.lexemes.length + 1))
        (mid.lexemes.length + 1) mid :=
    statementsToEnd_of_bounds (by omega) (by omega) (by omega) (by omega)
  rw [program_eq_map, program_eq_map, first, second]
  cases Parser.statementsToEnd (Parser.statement (mid.lexemes.length + 1))
    (mid.lexemes.length + 1) mid <;> rfl

theorem Feed.passes_lexemes {lexemes : List Lexeme} {feed : Feed} (guarded : feed.Guarded)
    (ranges : ∀ lexeme ∈ lexemes, lexeme.token.symbol.InRange) :
    (Feed.mk (lexemes ++ feed.lexemes) feed.ending).Passes
      (lexemes.map fun lexeme => lexeme.token.symbol) feed := by
  induction lexemes with
  | nil => rfl
  | cons lexeme rest ih =>
    obtain ⟨range, others⟩ := List.forall_mem_cons.mp ranges
    have left : (Feed.mk (rest ++ feed.lexemes) feed.ending).Guarded := by
      intro empty
      exact guarded (List.append_eq_nil_iff.mp empty).2
    exact ⟨lexeme.token, ⟨rest ++ feed.lexemes, feed.ending⟩,
      Parser.eat_eq_ok_iff.mpr ⟨rfl, ⟨lexeme.behind, rfl⟩, rfl, left⟩, rfl, range, ih others⟩

/-- The same tokens with an end, and with a fault behind the last of them. -/
def FeedRelation.cutOff (error : LexicalError) (cursor : Cursor) : FeedRelation where
  Feeds feed feed' := feed.lexemes ≠ [] ∧ (∃ behind, feed.ending = .finish behind) ∧
    feed' = ⟨feed.lexemes, .fault error cursor⟩
  Tokens := Eq
  Failures := Eq
  Stops failure := failure = ⟨.lexical error, cursor⟩

theorem FeedRelation.cutOff_lawful (error : LexicalError) (cursor : Cursor) :
    (FeedRelation.cutOff error cursor).Lawful where
  lookahead := by
    rintro feed _ ⟨-, -, rfl⟩
    rfl
  symbol := by
    rintro token _ rfl
    rfl
  eat := by
    rintro ⟨lexemes, ending⟩ _ kind ⟨nonempty, ⟨behind, finish⟩, rfl⟩
    simp only at nonempty finish
    subst finish
    cases lexemes with
    | nil => exact absurd rfl nonempty
    | cons lexeme rest =>
      by_cases fits : lexeme.token.kind = kind
      · simp only [Parser.eat, if_pos fits]
        cases rest with
        | nil => exact .stopped rfl
        | cons next rest =>
          exact .ok rfl ⟨List.cons_ne_nil _ _, ⟨behind, rfl⟩, rfl⟩ (Nat.le_refl _) (Nat.le_refl _)
      · simp only [Parser.eat, if_neg fits]
        exact .error rfl
  unexpected := by
    rintro ⟨lexemes, ending⟩ _ expected ⟨nonempty, -, rfl⟩
    cases lexemes with
    | nil => exact absurd rfl nonempty
    | cons lexeme rest => rfl
  tooLarge := by
    rintro token _ ⟨lexemes, ending⟩ _ rfl ⟨nonempty, -, rfl⟩
    cases lexemes with
    | nil => exact absurd rfl nonempty
    | cons lexeme rest => rfl

/-- Where the tokens of a program are followed by a fault, the fault is reported. -/
theorem program_of_fault {phrase : ProgramPhrase} {lexemes : List Lexeme} {error : LexicalError}
    {cursor : Cursor} (symbols : phrase.symbols = lexemes.map fun lexeme => lexeme.token.symbol)
    (ranges : ∀ lexeme ∈ lexemes, lexeme.token.symbol.InRange) (nonempty : lexemes ≠ []) :
    Parser.program ⟨lexemes, .fault error cursor⟩ = .error ⟨.lexical error, cursor⟩ := by
  have finished : (Feed.mk [] (.finish cursor)).Guarded := fun _ => ⟨cursor, rfl⟩
  have passed := Feed.passes_lexemes finished ranges
  rw [List.append_nil, ← symbols] at passed
  have read := program_eq_ok_iff.mpr ⟨phrase, passed, rfl, rfl⟩
  have outcome := (FeedRelation.cutOff_lawful error cursor).outcomes_program
    (show (FeedRelation.cutOff error cursor).Feeds ⟨lexemes, .finish cursor⟩
      ⟨lexemes, .fault error cursor⟩ from ⟨nonempty, ⟨cursor, rfl⟩, rfl⟩)
  rw [read] at outcome
  generalize Parser.program ⟨lexemes, .fault error cursor⟩ = result at outcome ⊢
  cases outcome with
  | ok same related less less' => exact absurd rfl related.1
  | stopped h =>
    obtain rfl := h
    rfl

/-- Reading the tokens of a program with further ones behind them. -/
theorem program_append {phrase : ProgramPhrase} {lexemes : List Lexeme}
    (symbols : phrase.symbols = lexemes.map fun lexeme => lexeme.token.symbol)
    (ranges : ∀ lexeme ∈ lexemes, lexeme.token.symbol.InRange) (feed : Feed) :
    ((Feed.mk (lexemes ++ feed.lexemes) feed.ending).guard >>= Parser.program) =
      (feed.guard >>= Parser.program).map (Prod.map phrase.tree.append id) := by
  by_cases guarded : feed.Guarded
  · have passed := Feed.passes_lexemes guarded ranges
    have whole : (Feed.mk (lexemes ++ feed.lexemes) feed.ending).Guarded := by
      intro empty
      exact guarded (List.append_eq_nil_iff.mp empty).2
    rw [← symbols] at passed
    rw [Feed.guard_eq_ok_iff.mpr ⟨rfl, guarded⟩, Feed.guard_eq_ok_iff.mpr ⟨rfl, whole⟩]
    exact program_of_passes passed
  · -- No token follows, and so the fault is found behind the last token of the program.
    obtain ⟨rest, ending⟩ := feed
    cases rest with
    | cons lexeme rest => exact absurd (fun empty => absurd empty (List.cons_ne_nil _ _)) guarded
    | nil =>
      cases ending with
      | finish cursor => exact absurd (fun _ => ⟨cursor, rfl⟩) guarded
      | fault error cursor =>
        rw [List.append_nil]
        cases lexemes with
        | nil => rfl
        | cons lexeme rest => exact program_of_fault symbols ranges (List.cons_ne_nil _ _)

/-! ## Places below a text -/

/-- The place that takes the part of a given one if a text and a line feed stand before it all. -/
def Position.below (above : List Char) (position : Position) : Position :=
  ⟨position.offset + above.length + 1, position.line + above.count '\n' + 1, position.column⟩

theorem Position.below_after (above text : List Char) (position : Position) :
    (position.below above).after text = (position.after text).below above := by
  induction text generalizing position with
  | nil => rfl
  | cons char text ih =>
    have next : (position.below above).next char = (position.next char).below above := by
      by_cases newline : char = '\n'
      · simp [Position.next, Position.below, newline]
        omega
      · simp [Position.next, Position.below, newline]
        omega
    rw [Position.after_cons, Position.after_cons, next, ih]

theorem Position.start_below (above : List Char) :
    Position.start.below above = .behind (above ++ ['\n']) := by
  simp [Position.below, Position.start, Position.behind]
  omega

/-- Reading a program with a text below it. -/
theorem Program.parse_below {first : String} {program : Program}
    (parsed : Program.parse first = .ok program) (second : String) :
    Program.parse (first ++ "\n" ++ second) =
      ((Program.parse second).map program.append).mapError
        (ParseError.moved (Position.below first.toList)) := by
  obtain ⟨tokens, phrase, tokenized, symbols, ranges, rfl⟩ :=
    Program.parse_eq_ok_iff_phrase.mp parsed
  obtain ⟨last, decomposes⟩ := exists_decomposes_of_tokenize tokenized
  have joins : OperatorsJoin (tokens.map Token.symbol) := by
    rw [← symbols]
    exact StatementPhrase.body_operatorsJoin phrase.statements
  obtain ⟨lexemes, rfl, feed⟩ :=
    Cursor.feed_append_newline decomposes rfl joins second.toList
  rw [List.map_map] at symbols
  replace ranges : ∀ lexeme ∈ lexemes, lexeme.token.symbol.InRange := by
    intro lexeme member
    exact ranges _ (List.mem_map_of_mem member)
  have start : Cursor.ofText (first ++ "\n" ++ second) =
      ⟨first.toList ++ '\n' :: second.toList, .behind []⟩ := by
    simp [Cursor.ofText, Position.behind, Position.start]
  -- The text below is read as if it stood alone, with its places moved.
  have along : (Cursor.ofText second).MovesAlong (Position.below first.toList) :=
    fun text => Position.below_after first.toList text _
  have alone : ((Cursor.ofText second).moved (Position.below first.toList)).parse.1 =
      (Program.parse second).mapError (ParseError.moved (Position.below first.toList)) := by
    rw [Cursor.parse_moved along]
    rfl
  have moved : (Cursor.ofText second).moved (Position.below first.toList) =
      ⟨second.toList, .behind ([] ++ first.toList ++ ['\n'])⟩ := by
    rw [List.nil_append, ← Position.start_below]
    rfl
  rw [moved, Cursor.parse] at alone
  rw [Program.parse, start, Cursor.parse, feed, program_append symbols ranges]
  have commutes : ((Program.parse second).map phrase.tree.append).mapError
        (ParseError.moved (Position.below first.toList)) =
      ((Program.parse second).mapError (ParseError.moved (Position.below first.toList))).map
        phrase.tree.append := by
    cases Program.parse second <;> rfl
  rw [commutes, ← alone]
  generalize (Cursor.mk second.toList (.behind ([] ++ first.toList ++ ['\n']))).feed.guard >>=
    Parser.program = result
  cases result <;> rfl

/-- A program and a text below it: if the text is a program, its statements follow; if not, its
    error is reported, as far down as the program and the line feed reach. -/
theorem Program.parse_append_newline {first : String} {program : Program}
    (parsed : Program.parse first = .ok program) (second : String) :
    (∀ more, Program.parse second = .ok more →
      Program.parse (first ++ "\n" ++ second) = .ok ⟨program.body ++ more.body⟩) ∧
    (∀ error, Program.parse second = .error error →
      ∃ moved, Program.parse (first ++ "\n" ++ second) = .error moved ∧
        moved.report.kind = error.report.kind ∧
        moved.report.position.column = error.report.position.column ∧
        moved.report.position.line =
          error.report.position.line + (1 + first.toList.count '\n') ∧
        moved.report.position.offset = error.report.position.offset + (first.length + 1)) := by
  have below := Program.parse_below parsed second
  refine ⟨?_, ?_⟩
  · intro more read
    rw [below, read]
    rfl
  · intro error failed
    rw [below, failed]
    refine ⟨_, rfl, ParseError.report_moved_kind _ _, ?_⟩
    rw [ParseError.report_moved_position]
    refine ⟨rfl, ?_, ?_⟩
    · simp only [Position.below]
      omega
    · simp only [Position.below, String.length_toList]
      omega

/-- A program that ends in a comment, with a text below it in which a comment is left open. -/
theorem Program.parse_append_newline_comments :
    Program.parse "return a; // up to here /*" = .ok ⟨[.returnStatement (some (.identifier "a"))]⟩ ∧
    Program.parse "/* */ return b * /* ;" = .error (.grammatical
      (.unexpected .operand (some ⟨.operator, "/", ⟨17, 1, 18⟩⟩) ⟨17, 1, 18⟩)) ∧
    ∃ moved, Program.parse ("return a; // up to here /*" ++ "\n" ++ "/* */ return b * /* ;") =
        .error moved ∧
      moved.report.kind = .grammatical ∧ moved.report.position = ⟨44, 2, 18⟩ := by
  have parsed : Program.parse "return a; // up to here /*" =
      .ok ⟨[.returnStatement (some (.identifier "a"))]⟩ := by
    cbv
  have failed : Program.parse "/* */ return b * /* ;" = .error (.grammatical
      (.unexpected .operand (some ⟨.operator, "/", ⟨17, 1, 18⟩⟩) ⟨17, 1, 18⟩)) := by
    cbv
  obtain ⟨moved, read, kind, column, line, offset⟩ :=
    (Program.parse_append_newline parsed "/* */ return b * /* ;").2 _ failed
  refine ⟨parsed, failed, moved, read, kind, ?_⟩
  generalize moved.report.position = position at column line offset
  obtain ⟨o, l, c⟩ := position
  simp only at column line offset
  subst column line offset
  rfl

end TinyScript
