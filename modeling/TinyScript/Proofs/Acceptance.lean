import TinyScript.Proofs.Unambiguous

/-!
# Reading accepts the grammar

A text is read as a program exactly if its tokens are the symbols of a phrase of the grammar, every
number among them being in range, and the program is the phrase's tree. What remains for this after
expressions are statements, whose first token tells their form, and bodies, which end at a brace or
at the end of the input.
-/

namespace TinyScript

/-! ## Statements without a body -/

theorem variableDeclaration_eq_ok_iff {bound : Nat} {feed behind : Feed}
    (short : feed.lexemes.length ≤ bound + 1) {statement : Statement} :
    Parser.variableDeclaration bound feed = .ok (statement, behind) ↔
      ∃ phrase : VariablePhrase, feed.Passes phrase.symbols behind ∧ phrase.tree = statement := by
  simp only [Parser.variableDeclaration, Parser.bind_eq_ok_iff, Parser.discard_eq_ok_iff,
    Parser.pure_eq_ok_iff, exists_const]
  constructor
  · rintro ⟨f₁, ⟨keyword, e₁⟩, name, f₂, e₂, f₃, ⟨colon, e₃⟩, typeName, f₄, e₄, f₅, ⟨assign, e₅⟩,
      value, f₆, read, f₇, ⟨semicolon, e₆⟩, rfl, rfl⟩
    have front := Feed.Passes.of_eat (by decide) e₁ (.of_eat (by decide) e₂ (.of_eat (by decide) e₃
      (.of_eat (by decide) e₄ (.of_eat (by decide) e₅ (.refl _)))))
    have frontLength := front.length
    obtain ⟨phrase, passed, rfl, -⟩ := (expression_recognizes bound (by grind) _ _).mp read
    refine ⟨⟨⟨keyword.text⟩, ⟨name.text⟩, ⟨colon.text⟩, ⟨typeName.text⟩, ⟨assign.text⟩, phrase,
      ⟨semicolon.text⟩⟩, ?_, rfl⟩
    exact Feed.passes_append.mpr ⟨f₆, Feed.passes_append.mpr ⟨f₅, front, passed⟩,
      .of_eat (by decide) e₆ (.refl _)⟩
  · rintro ⟨phrase, passed, rfl⟩
    obtain ⟨f₆, beginning, back⟩ := Feed.passes_append.mp passed
    obtain ⟨f₅, front, valuePassed⟩ := Feed.passes_append.mp beginning
    have frontLength := front.length
    simp (disch := decide) only [Feed.passes_terminal, Feed.passes_nil] at front back
    obtain ⟨keyword, f₁, e₁, -, name, f₂, e₂, nameText, colon, f₃, e₃, -, typeName, f₄, e₄,
      typeText, assign, _, e₅, -, rfl⟩ := front
    obtain ⟨semicolon, _, e₆, -, rfl⟩ := back
    have stops := Feed.stops_of_eat (by decide) e₆ (sumOperators ++ productOperators)
    refine ⟨f₁, ⟨keyword, e₁⟩, name, f₂, e₂, f₃, ⟨colon, e₃⟩, typeName, f₄, e₄, _, ⟨assign, e₅⟩,
      phrase.value.tree, f₆, ?_, _, ⟨semicolon, e₆⟩, ?_, rfl⟩
    · exact (expression_recognizes bound (by grind) _ _).mpr
        ⟨phrase.value, valuePassed, rfl, stops⟩
    · rw [nameText, typeText]
      rfl

theorem returnStatement_eq_ok_iff {bound : Nat} {feed behind : Feed}
    (short : feed.lexemes.length ≤ bound + 1) {statement : Statement} :
    Parser.returnStatement bound feed = .ok (statement, behind) ↔
      ∃ phrase : ReturnPhrase, feed.Passes phrase.symbols behind ∧ phrase.tree = statement := by
  simp only [Parser.returnStatement, Parser.bind_eq_ok_iff, Parser.discard_eq_ok_iff,
    Parser.check_bind, exists_const]
  constructor
  · rintro ⟨f₁, ⟨keyword, e₁⟩, h⟩
    have frontLength := Parser.eat_length e₁
    split at h
    · simp only [Parser.bind_eq_ok_iff, Parser.discard_eq_ok_iff, Parser.pure_eq_ok_iff,
        exists_const] at h
      obtain ⟨f₂, ⟨semicolon, e₂⟩, rfl, rfl⟩ := h
      exact ⟨⟨⟨keyword.text⟩, none, ⟨semicolon.text⟩⟩,
        .of_eat (by decide) e₁ (.of_eat (by decide) e₂ (.refl _)), rfl⟩
    · simp only [Parser.bind_eq_ok_iff, Parser.discard_eq_ok_iff, Parser.pure_eq_ok_iff,
        exists_const] at h
      obtain ⟨argument, f₂, read, f₃, ⟨semicolon, e₂⟩, rfl, rfl⟩ := h
      obtain ⟨phrase, passed, rfl, -⟩ := (expression_recognizes bound (by omega) _ _).mp read
      exact ⟨⟨⟨keyword.text⟩, some phrase, ⟨semicolon.text⟩⟩, .of_eat (by decide) e₁
        (Feed.passes_append.mpr ⟨f₂, passed, .of_eat (by decide) e₂ (.refl _)⟩), rfl⟩
  · rintro ⟨⟨keyword, argument, semicolon⟩, passed, rfl⟩
    obtain ⟨f₂, beginning, back⟩ := Feed.passes_append.mp passed
    obtain ⟨f₁, front, argumentPassed⟩ := Feed.passes_append.mp beginning
    simp (disch := decide) only [Feed.passes_terminal, Feed.passes_nil] at front back
    obtain ⟨keywordToken, mid, e₁, -, rfl⟩ := front
    obtain ⟨semicolonToken, _, e₂, -, rfl⟩ := back
    have frontLength := Parser.eat_length e₁
    refine ⟨_, ⟨keywordToken, e₁⟩, ?_⟩
    cases argument with
    | none =>
      obtain rfl : _ = f₂ := argumentPassed
      rw [Parser.eat_kind e₂]
      simp only [decide_true, if_true, Parser.bind_eq_ok_iff, Parser.discard_eq_ok_iff,
        Parser.pure_eq_ok_iff, exists_const]
      exact ⟨_, ⟨semicolonToken, e₂⟩, rfl, rfl⟩
    | some phrase =>
      have stops := Feed.stops_of_eat (by decide) e₂ (sumOperators ++ productOperators)
      have read := (expression_recognizes bound (by omega) _ _).mpr
        ⟨phrase, argumentPassed, rfl, stops⟩
      obtain ⟨symbol, rest, head, kind⟩ := phrase.startsIn
      have kindFound : mid.kind? = some symbol.kind := by
        rw [Option.elim_some, head] at argumentPassed
        exact argumentPassed.kind?
      have other : symbol.kind ≠ .semicolon := by
        intro same
        rw [same] at kind
        exact absurd kind (by decide)
      rw [kindFound]
      simp only [Option.some.injEq, other, decide_false, Bool.false_eq_true, if_false,
        Parser.bind_eq_ok_iff, Parser.discard_eq_ok_iff, Parser.pure_eq_ok_iff, exists_const]
      exact ⟨_, _, read, _, ⟨semicolonToken, e₂⟩, rfl, rfl⟩

/-! ## Signatures -/

theorem parameter_eq_ok_iff {feed behind : Feed} {parameter : Parameter} :
    Parser.parameter feed = .ok (parameter, behind) ↔
      ∃ phrase : ParameterPhrase, feed.Passes phrase.symbols behind ∧ phrase.tree = parameter := by
  simp only [Parser.parameter, Parser.bind_eq_ok_iff, Parser.discard_eq_ok_iff,
    Parser.pure_eq_ok_iff, exists_const]
  constructor
  · rintro ⟨name, f₁, e₁, f₂, ⟨colon, e₂⟩, typeName, f₃, e₃, rfl, rfl⟩
    exact ⟨⟨⟨name.text⟩, ⟨colon.text⟩, ⟨typeName.text⟩⟩, .of_eat (by decide) e₁
      (.of_eat (by decide) e₂ (.of_eat (by decide) e₃ (.refl _))), rfl⟩
  · rintro ⟨phrase, passed, rfl⟩
    simp (disch := decide) only [ParameterPhrase.symbols, Feed.passes_terminal,
      Feed.passes_nil] at passed
    obtain ⟨name, f₁, e₁, nameText, colon, f₂, e₂, -, typeName, f₃, e₃, typeText, rfl⟩ := passed
    exact ⟨name, f₁, e₁, f₂, ⟨colon, e₂⟩, typeName, f₃, e₃, by rw [nameText, typeText]; rfl, rfl⟩

/-- Parameters end where no comma stands. -/
theorem more_iff_of_other {feed behind : Feed} {parameters : List Parameter}
    (other : feed.kind? ≠ some .comma) :
    ([] = parameters ∧ feed = behind) ↔
      ∃ more, feed.Passes (moreSymbols more) behind ∧
        more.map (fun (_, parameter) => parameter.tree) = parameters ∧
        behind.kind? ≠ some .comma := by
  constructor
  · rintro ⟨rfl, rfl⟩
    exact ⟨[], rfl, rfl, other⟩
  · rintro ⟨more, passed, rfl, -⟩
    cases more with
    | nil => exact ⟨rfl, passed⟩
    | cons first more => exact absurd passed.kind? other

theorem moreParameters_eq_ok_iff (rounds : Nat) {feed behind : Feed}
    (within : feed.lexemes.length ≤ rounds) {parameters : List Parameter} :
    Parser.moreParameters rounds feed = .ok (parameters, behind) ↔
      ∃ more, feed.Passes (moreSymbols more) behind ∧
        more.map (fun (_, parameter) => parameter.tree) = parameters ∧
        behind.kind? ≠ some .comma := by
  induction rounds generalizing feed parameters with
  | zero =>
    have empty : feed.lexemes = [] := List.length_eq_zero_iff.mp (by omega)
    rw [Parser.moreParameters, Parser.pure_eq_ok_iff]
    exact more_iff_of_other (by simp [Feed.kind?, empty])
  | succ rounds ih =>
    rw [Parser.moreParameters, Parser.check_bind]
    by_cases comma : feed.kind? = some .comma
    · simp only [comma, decide_true, if_true, Parser.bind_eq_ok_iff, Parser.discard_eq_ok_iff,
        Parser.pure_eq_ok_iff, exists_const, parameter_eq_ok_iff]
      constructor
      · rintro ⟨f₁, ⟨token, e₁⟩, parameter, f₂, ⟨phrase, passed, rfl⟩, others, f₃, read, rfl, rfl⟩
        have eatenLength := Parser.eat_length e₁
        have passedLength := passed.length
        obtain ⟨more, morePassed, rfl, other⟩ := (ih (by omega)).mp read
        refine ⟨(⟨token.text⟩, phrase) :: more, ?_, rfl, other⟩
        exact .of_eat (by decide) e₁ (Feed.passes_append.mpr ⟨f₂, passed, morePassed⟩)
      · rintro ⟨more, passed, rfl, other⟩
        cases more with
        | nil =>
          obtain rfl : feed = behind := passed
          exact absurd comma other
        | cons first more =>
          obtain ⟨token, f₁, e₁, -, passed⟩ := (Feed.passes_terminal (by decide)).mp passed
          obtain ⟨f₂, parameterPassed, morePassed⟩ := Feed.passes_append.mp passed
          have eatenLength := Parser.eat_length e₁
          have passedLength := parameterPassed.length
          have read := (ih (by omega)).mpr ⟨more, morePassed, rfl, other⟩
          exact ⟨f₁, ⟨token, e₁⟩, _, f₂, ⟨first.2, parameterPassed, rfl⟩, _, _, read, rfl, rfl⟩
    · simp only [comma, decide_false, Bool.false_eq_true, if_false, Parser.pure_eq_ok_iff]
      exact more_iff_of_other comma

theorem parameters_eq_ok_iff {bound : Nat} {feed behind : Feed}
    (short : feed.lexemes.length ≤ bound) {parameters : List Parameter} :
    Parser.parameters bound feed = .ok (parameters, behind) ↔
      ∃ (left : Terminal .lParen) (phrase : Option ParametersPhrase) (right : Terminal .rParen),
        feed.Passes ([left.symbol] ++ phrase.elim [] ParametersPhrase.symbols ++ [right.symbol])
          behind ∧ phrase.elim [] ParametersPhrase.tree = parameters := by
  simp only [Parser.parameters, Parser.bind_eq_ok_iff, Parser.discard_eq_ok_iff,
    Parser.check_bind, exists_const]
  constructor
  · rintro ⟨f₁, ⟨left, e₁⟩, h⟩
    have frontLength := Parser.eat_length e₁
    split at h
    · simp only [Parser.bind_eq_ok_iff, Parser.discard_eq_ok_iff, Parser.pure_eq_ok_iff,
        exists_const] at h
      obtain ⟨f₂, ⟨right, e₂⟩, rfl, rfl⟩ := h
      exact ⟨⟨left.text⟩, none, ⟨right.text⟩,
        .of_eat (by decide) e₁ (.of_eat (by decide) e₂ (.refl _)), rfl⟩
    · simp only [Parser.bind_eq_ok_iff, Parser.discard_eq_ok_iff, Parser.pure_eq_ok_iff,
        exists_const] at h
      obtain ⟨first, f₂, readFirst, others, f₃, readMore, f₄, ⟨right, e₂⟩, rfl, rfl⟩ := h
      obtain ⟨phrase, passed, rfl⟩ := parameter_eq_ok_iff.mp readFirst
      have passedLength := passed.length
      obtain ⟨more, morePassed, rfl, -⟩ := (moreParameters_eq_ok_iff bound (by omega)).mp readMore
      have allPassed : f₁.Passes (ParametersPhrase.symbols ⟨phrase, more⟩) f₃ :=
        Feed.passes_append.mpr ⟨f₂, passed, morePassed⟩
      refine ⟨⟨left.text⟩, some ⟨phrase, more⟩, ⟨right.text⟩, .of_eat (by decide) e₁ ?_, rfl⟩
      exact Feed.passes_append.mpr ⟨f₃, allPassed, .of_eat (by decide) e₂ (.refl _)⟩
  · rintro ⟨left, phrase, right, passed, rfl⟩
    obtain ⟨f₂, beginning, back⟩ := Feed.passes_append.mp passed
    obtain ⟨f₁, front, innerPassed⟩ := Feed.passes_append.mp beginning
    simp (disch := decide) only [Feed.passes_terminal, Feed.passes_nil] at front back
    obtain ⟨leftToken, _, e₁, -, rfl⟩ := front
    obtain ⟨rightToken, _, e₂, -, rfl⟩ := back
    have frontLength := Parser.eat_length e₁
    refine ⟨_, ⟨leftToken, e₁⟩, ?_⟩
    cases phrase with
    | none =>
      obtain rfl : _ = f₂ := innerPassed
      rw [Parser.eat_kind e₂]
      simp only [decide_true, if_true, Parser.bind_eq_ok_iff, Parser.discard_eq_ok_iff,
        Parser.pure_eq_ok_iff, exists_const]
      exact ⟨_, ⟨rightToken, e₂⟩, rfl, rfl⟩
    | some phrase =>
      obtain ⟨f₃, firstPassed, morePassed⟩ := Feed.passes_append.mp innerPassed
      have firstLength := firstPassed.length
      have readFirst := parameter_eq_ok_iff.mpr ⟨phrase.first, firstPassed, rfl⟩
      have other : f₂.kind? ≠ some .comma := by
        rw [Parser.eat_kind e₂]
        decide
      have readMore := (moreParameters_eq_ok_iff bound (by omega)).mpr
        ⟨phrase.rest, morePassed, rfl, other⟩
      rw [firstPassed.kind?]
      simp only [Terminal.symbol, Option.some.injEq, reduceCtorEq, decide_false,
        Bool.false_eq_true, if_false, Parser.bind_eq_ok_iff, Parser.discard_eq_ok_iff,
        Parser.pure_eq_ok_iff, exists_const]
      exact ⟨_, _, readFirst, _, _, readMore, _, ⟨rightToken, e₂⟩, rfl, rfl⟩

/-! ## Bodies -/

/-- A reader of statements that needs no lookahead behind them. -/
abbrev RecognizesStatements (statement : Parser Statement) (bound : Nat) : Prop :=
  statement.Recognizes bound StatementPhrase.symbols StatementPhrase.tree fun _ => True

section Body

variable {statement : Parser Statement} {bound : Nat}

/-- Statements with the given trees lead from one feed to another, where the body ends. -/
def BodyBetween (ends : Feed → Prop) (feed behind : Feed) (body : List Statement) : Prop :=
  ∃ phrases, feed.Passes (StatementPhrase.bodySymbols phrases) behind ∧
    StatementPhrase.bodyTree phrases = body ∧ ends behind

/-- No statement starts where a body ends, so that the body is empty there. -/
theorem bodyBetween_of_ends {ends : Feed → Prop} {feed behind : Feed} {body : List Statement}
    (here : ends feed)
    (other : ∀ kind ∈ statementKinds, feed.kind? ≠ some kind) :
    BodyBetween ends feed behind body ↔ [] = body ∧ feed = behind := by
  constructor
  · rintro ⟨phrases, passed, rfl, -⟩
    cases phrases with
    | nil => exact ⟨rfl, passed⟩
    | cons phrase phrases =>
      obtain ⟨symbol, rest, head, kind⟩ := phrase.startsIn
      rw [StatementPhrase.bodySymbols, head] at passed
      exact absurd passed.kind? (other symbol.kind kind)
  · rintro ⟨rfl, rfl⟩
    exact ⟨[], rfl, rfl, here⟩

/-- Elsewhere a body goes on with a statement. -/
theorem bodyBetween_step (recognizes : RecognizesStatements statement bound)
    {more : Parser (List Statement)} {ends : Feed → Prop} {feed behind : Feed}
    {body : List Statement} (short : feed.lexemes.length ≤ bound) (goes : ¬ ends feed)
    (readsMore : ∀ mid body, mid.lexemes.length < feed.lexemes.length →
      (more mid = .ok (body, behind) ↔ BodyBetween ends mid behind body)) :
    (∃ first mid, statement feed = .ok (first, mid) ∧ ∃ others last,
        more mid = .ok (others, last) ∧ first :: others = body ∧ last = behind) ↔
      BodyBetween ends feed behind body := by
  have shorter {phrase : StatementPhrase} {mid : Feed} (passed : feed.Passes phrase.symbols mid) :
      mid.lexemes.length < feed.lexemes.length :=
    passed.length_lt phrase.startsIn.ne_nil
  constructor
  · rintro ⟨first, mid, read, others, last, readOthers, rfl, rfl⟩
    obtain ⟨phrase, passed, rfl, -⟩ := (recognizes short _ _).mp read
    obtain ⟨phrases, morePassed, rfl, here⟩ := (readsMore _ _ (shorter passed)).mp readOthers
    exact ⟨phrase :: phrases, Feed.passes_append.mpr ⟨mid, passed, morePassed⟩, rfl, here⟩
  · rintro ⟨phrases, passed, rfl, here⟩
    cases phrases with
    | nil =>
      obtain rfl : feed = behind := passed
      exact absurd here goes
    | cons phrase phrases =>
      obtain ⟨mid, phrasePassed, morePassed⟩ := Feed.passes_append.mp passed
      have read := (recognizes short _ _).mpr ⟨phrase, phrasePassed, rfl, trivial⟩
      have readOthers := (readsMore _ _ (shorter phrasePassed)).mpr ⟨phrases, morePassed, rfl, here⟩
      exact ⟨phrase.tree, mid, read, _, _, readOthers, rfl, rfl⟩

theorem statementsToBrace_eq_ok_iff (recognizes : RecognizesStatements statement bound)
    (owner : String) (rounds : Nat) {feed behind : Feed} (within : feed.lexemes.length < rounds)
    (short : feed.lexemes.length ≤ bound) {body : List Statement} :
    Parser.statementsToBrace owner statement rounds feed = .ok (body, behind) ↔
      BodyBetween (fun feed => feed.kind? = some .rBrace) feed behind body := by
  induction rounds generalizing feed body with
  | zero => omega
  | succ rounds ih =>
    rw [Parser.statementsToBrace, Parser.peek_bind]
    cases lexemes : feed.lexemes with
    | nil =>
      have kind : feed.kind? = none := by rw [Feed.kind?, lexemes]; rfl
      constructor
      · intro h
        exact absurd h Parser.unexpected_ne_ok
      · rintro ⟨phrases, passed, -, closes⟩
        have passedLength := passed.length
        rw [lexemes, List.length_nil] at passedLength
        have empty : behind.lexemes = [] := List.length_eq_zero_iff.mp (by omega)
        simp [Feed.kind?, empty] at closes
    | cons lexeme rest =>
      have kind : feed.kind? = some lexeme.token.kind := by rw [Feed.kind?, lexemes]; rfl
      by_cases closes : lexeme.token.kind = .rBrace
      · rw [closes] at kind
        simp only [List.head?_cons, Option.map_some, closes, if_true, Parser.pure_eq_ok_iff]
        exact (bodyBetween_of_ends kind (by rw [kind]; decide)).symm
      · simp only [List.head?_cons, Option.map_some, closes, if_false, Parser.bind_eq_ok_iff,
          Parser.pure_eq_ok_iff]
        exact bodyBetween_step recognizes short (by simpa [kind] using closes)
          fun mid body shorter => ih (by omega) (by omega)

theorem statementsToEnd_eq_ok_iff (recognizes : RecognizesStatements statement bound)
    (rounds : Nat) {feed behind : Feed} (within : feed.lexemes.length < rounds)
    (short : feed.lexemes.length ≤ bound) {body : List Statement} :
    Parser.statementsToEnd statement rounds feed = .ok (body, behind) ↔
      BodyBetween (fun feed => feed.lexemes = []) feed behind body := by
  induction rounds generalizing feed body with
  | zero => omega
  | succ rounds ih =>
    rw [Parser.statementsToEnd, Parser.peek_bind]
    cases lexemes : feed.lexemes with
    | nil =>
      have kind : feed.kind? = none := by rw [Feed.kind?, lexemes]; rfl
      simp only [List.head?_nil, Option.map_none, Parser.pure_eq_ok_iff]
      exact (bodyBetween_of_ends lexemes (by rw [kind]; decide)).symm
    | cons lexeme rest =>
      simp only [List.head?_cons, Option.map_some, Parser.bind_eq_ok_iff, Parser.pure_eq_ok_iff]
      exact bodyBetween_step recognizes short (by simp [lexemes])
        fun mid body shorter => ih (by omega) (by omega)

/-- The symbols of a function, with the parentheses set off as they are read. -/
theorem function_symbols (signature : SignaturePhrase) (left : Terminal .lBrace)
    (body : List StatementPhrase) (right : Terminal .rBrace) :
    (StatementPhrase.functionDeclaration signature left body right).symbols =
      [signature.keyword.symbol, signature.name.symbol] ++
        ([signature.left.symbol] ++ signature.parameters.elim [] ParametersPhrase.symbols ++
          [signature.right.symbol]) ++
        [signature.colon.symbol, signature.returnType.symbol, left.symbol] ++
        StatementPhrase.bodySymbols body ++ [right.symbol] := by
  simp [StatementPhrase.symbols, SignaturePhrase.symbols]

theorem functionDeclaration_eq_ok_iff (recognizes : RecognizesStatements statement bound)
    {feed behind : Feed} (short : feed.lexemes.length ≤ bound + 1) {tree : Statement} :
    Parser.functionDeclaration bound statement feed = .ok (tree, behind) ↔
      ∃ signature left body right,
        feed.Passes (StatementPhrase.functionDeclaration signature left body right).symbols behind ∧
          signature.tree (StatementPhrase.bodyTree body) = tree := by
  simp only [Parser.functionDeclaration, Parser.block, Parser.bind_eq_ok_iff,
    Parser.discard_eq_ok_iff, Parser.pure_eq_ok_iff, exists_const]
  constructor
  · rintro ⟨f₁, ⟨keyword, e₁⟩, name, f₂, e₂, parameters, f₃, readParameters, f₄, ⟨colon, e₃⟩,
      returnType, f₅, e₄, body, f₆, ⟨f₇, ⟨left, e₅⟩, inner, f₈, readBody, f₉, ⟨right, e₆⟩, rfl,
      rfl⟩, rfl, rfl⟩
    have front := Feed.Passes.of_eat (by decide) e₁ (.of_eat (by decide) e₂ (.refl _))
    have frontLength := front.length
    obtain ⟨leftParen, phrase, rightParen, parametersPassed, rfl⟩ :=
      (parameters_eq_ok_iff (by grind)).mp readParameters
    have parametersLength := parametersPassed.length
    have middle := Feed.Passes.of_eat (by decide) e₃ (.of_eat (by decide) e₄
      (.of_eat (by decide) e₅ (.refl _)))
    have middleLength := middle.length
    obtain ⟨phrases, bodyPassed, rfl, -⟩ :=
      (statementsToBrace_eq_ok_iff recognizes _ _ (by grind) (by grind)).mp readBody
    refine ⟨⟨⟨keyword.text⟩, ⟨name.text⟩, leftParen, phrase, rightParen, ⟨colon.text⟩,
      ⟨returnType.text⟩⟩, ⟨left.text⟩, phrases, ⟨right.text⟩, ?_, rfl⟩
    rw [function_symbols]
    refine Feed.passes_append.mpr ⟨f₈, ?_, .of_eat (by decide) e₆ (.refl _)⟩
    refine Feed.passes_append.mpr ⟨f₇, ?_, bodyPassed⟩
    exact Feed.passes_append.mpr
      ⟨f₃, Feed.passes_append.mpr ⟨f₂, front, parametersPassed⟩, middle⟩
  · rintro ⟨signature, left, body, right, passed, rfl⟩
    rw [function_symbols] at passed
    obtain ⟨f₈, passed₈, back⟩ := Feed.passes_append.mp passed
    obtain ⟨f₇, passed₇, bodyPassed⟩ := Feed.passes_append.mp passed₈
    obtain ⟨f₃, passed₃, middle⟩ := Feed.passes_append.mp passed₇
    obtain ⟨f₂, front, parametersPassed⟩ := Feed.passes_append.mp passed₃
    have frontLength := front.length
    have parametersLength := parametersPassed.length
    have middleLength := middle.length
    simp (disch := decide) only [Feed.passes_terminal, Feed.passes_nil] at front middle back
    obtain ⟨keyword, f₁, e₁, -, name, _, e₂, nameText, rfl⟩ := front
    obtain ⟨colon, f₄, e₃, -, returnType, f₅, e₄, typeText, leftToken, _, e₅, -, rfl⟩ := middle
    obtain ⟨rightToken, _, e₆, -, rfl⟩ := back
    have readParameters := (parameters_eq_ok_iff (show _ ≤ bound by grind)).mpr
      ⟨signature.left, signature.parameters, signature.right, parametersPassed, rfl⟩
    have readBody := (statementsToBrace_eq_ok_iff recognizes name.text bound (by grind)
      (by grind)).mpr ⟨body, bodyPassed, rfl, Parser.eat_kind e₆⟩
    refine ⟨f₁, ⟨keyword, e₁⟩, name, _, e₂, _, f₃, readParameters, f₄, ⟨colon, e₃⟩, returnType, f₅,
      e₄, _, _, ⟨_, ⟨leftToken, e₅⟩, _, f₈, readBody, _, ⟨rightToken, e₆⟩, rfl, rfl⟩, ?_, rfl⟩
    rw [nameText, typeText]
    rfl

end Body

theorem statement_recognizes (bound : Nat) :
    RecognizesStatements (Parser.statement bound) bound := by
  induction bound with
  | zero =>
    intro feed short tree behind
    constructor
    · intro h
      exact absurd h Parser.unexpected_ne_ok
    · rintro ⟨phrase, passed, -⟩
      have less := passed.length_lt phrase.startsIn.ne_nil
      omega
  | succ bound ih =>
    intro feed short tree behind
    rw [Parser.statement, Parser.peek_bind]
    constructor
    · intro h
      generalize (feed.lexemes.head?.map Lexeme.token).map Token.kind = kind at h
      split at h
      · obtain ⟨phrase, passed, rfl⟩ := (variableDeclaration_eq_ok_iff short).mp h
        exact ⟨.variableDeclaration phrase, passed, rfl, trivial⟩
      · obtain ⟨signature, left, body, right, passed, rfl⟩ :=
          (functionDeclaration_eq_ok_iff ih short).mp h
        exact ⟨.functionDeclaration signature left body right, passed, rfl, trivial⟩
      · obtain ⟨phrase, passed, rfl⟩ := (returnStatement_eq_ok_iff short).mp h
        exact ⟨.returnStatement phrase, passed, rfl, trivial⟩
      · exact absurd h Parser.unexpected_ne_ok
    · rintro ⟨phrase, passed, rfl, -⟩
      rw [← Feed.kind?]
      cases phrase with
      | variableDeclaration phrase =>
        rw [(passed : feed.Passes (phrase.keyword.symbol :: _) behind).kind?]
        exact (variableDeclaration_eq_ok_iff short).mpr ⟨phrase, passed, rfl⟩
      | functionDeclaration signature left body right =>
        rw [(passed : feed.Passes (signature.keyword.symbol :: _) behind).kind?]
        exact (functionDeclaration_eq_ok_iff ih short).mpr
          ⟨signature, left, body, right, passed, rfl⟩
      | returnStatement phrase =>
        rw [(passed : feed.Passes (phrase.keyword.symbol :: _) behind).kind?]
        exact (returnStatement_eq_ok_iff short).mpr ⟨phrase, passed, rfl⟩

/-! ## Programs -/

theorem program_eq_ok_iff {feed behind : Feed} {program : Program} :
    Parser.program feed = .ok (program, behind) ↔
      ∃ phrase : ProgramPhrase, feed.Passes phrase.symbols behind ∧ phrase.tree = program ∧
        behind.lexemes = [] := by
  change ((Parser.statementsToEnd (Parser.statement (feed.lexemes.length + 1))
    (feed.lexemes.length + 1)) >>= fun body => pure (⟨body⟩ : Program)) feed = _ ↔ _
  rw [Parser.bind_eq_ok_iff]
  have reads {mid : Feed} {body : List Statement} :
      Parser.statementsToEnd (Parser.statement (feed.lexemes.length + 1)) (feed.lexemes.length + 1)
        feed = .ok (body, mid) ↔ BodyBetween (fun feed => feed.lexemes = []) feed mid body :=
    statementsToEnd_eq_ok_iff (statement_recognizes _) _ (by omega) (by omega)
  constructor
  · rintro ⟨body, mid, read, h⟩
    obtain ⟨rfl, rfl⟩ := Parser.pure_eq_ok_iff.mp h
    obtain ⟨phrases, passed, rfl, ends⟩ := reads.mp read
    exact ⟨⟨phrases⟩, passed, rfl, ends⟩
  · rintro ⟨⟨phrases⟩, passed, rfl, ends⟩
    exact ⟨_, behind, reads.mpr ⟨phrases, passed, rfl, ends⟩, Parser.pure_eq_ok_iff.mpr ⟨rfl, rfl⟩⟩

/-- Passing all tokens of a feed: the text ends as it should, and every number is in range. -/
theorem Feed.passes_all_iff {feed behind : Feed} {symbols : List Symbol} :
    (feed.Guarded ∧ feed.Passes symbols behind ∧ behind.lexemes = []) ↔
      (∃ cursor, feed.ending = .finish cursor) ∧ behind = ⟨[], feed.ending⟩ ∧
        symbols = feed.lexemes.map (fun lexeme => lexeme.token.symbol) ∧
        ∀ symbol ∈ symbols, symbol.InRange := by
  induction symbols generalizing feed with
  | nil =>
    obtain ⟨lexemes, ending⟩ := feed
    constructor
    · rintro ⟨guarded, rfl, rfl⟩
      exact ⟨guarded rfl, rfl, rfl, by simp⟩
    · rintro ⟨finished, rfl, empty, -⟩
      obtain rfl : lexemes = [] := List.map_eq_nil_iff.mp empty.symm
      exact ⟨fun _ => finished, rfl, rfl⟩
  | cons symbol symbols ih =>
    constructor
    · rintro ⟨guarded, ⟨token, mid, eaten, text, range, passed⟩, ends⟩
      obtain ⟨kind, ⟨cursor, lexemes⟩, ending, midGuarded⟩ := Parser.eat_eq_ok_iff.mp eaten
      obtain ⟨finished, rfl, rfl, ranges⟩ := ih.mp ⟨midGuarded, passed, ends⟩
      rw [ending] at finished
      refine ⟨finished, by rw [ending], ?_, ?_⟩
      · rw [lexemes, List.map_cons, Token.symbol, kind, text]
      · exact List.forall_mem_cons.mpr ⟨range, ranges⟩
    · rintro ⟨⟨cursor, finished⟩, rfl, same, ranges⟩
      obtain ⟨lexeme, rest, lexemes, rfl, rfl⟩ := List.map_eq_cons_iff.mp same.symm
      have guarded (mid : Feed) (ending : mid.ending = feed.ending) : mid.Guarded :=
        fun _ => ⟨cursor, ending.trans finished⟩
      obtain ⟨-, passed, -⟩ := (@ih ⟨rest, feed.ending⟩).mpr
        ⟨⟨cursor, finished⟩, rfl, rfl, (List.forall_mem_cons.mp ranges).2⟩
      refine ⟨guarded feed rfl, ⟨lexeme.token, ⟨rest, feed.ending⟩, ?_, rfl,
        (List.forall_mem_cons.mp ranges).1, passed⟩, rfl⟩
      exact Parser.eat_eq_ok_iff.mpr ⟨rfl, ⟨lexeme.behind, lexemes⟩, rfl, guarded _ rfl⟩

theorem Feed.tokens_eq_ok_iff {feed : Feed} {tokens : List Token} :
    feed.tokens = .ok tokens ↔
      (∃ cursor, feed.ending = .finish cursor) ∧ feed.lexemes.map Lexeme.token = tokens := by
  cases ending : feed.ending with
  | finish cursor => simp [Feed.tokens, ending]
  | fault error cursor => simp [Feed.tokens, ending]

theorem Program.parse_eq_ok_iff_feed {source : String} {program : Program} :
    Program.parse source = .ok program ↔ ∃ behind, (Cursor.ofText source).feed.Guarded ∧
      Parser.program (Cursor.ofText source).feed = .ok (program, behind) := by
  unfold Program.parse Cursor.parse
  generalize (Cursor.ofText source).feed = feed
  cases guarded : feed.guard with
  | error failure =>
    constructor
    · intro h
      cases h
    · rintro ⟨behind, h, -⟩
      rw [Feed.guard_eq_ok_iff.mpr ⟨rfl, h⟩] at guarded
      cases guarded
  | ok left =>
    obtain ⟨rfl, h⟩ := Feed.guard_eq_ok_iff.mp guarded
    have goesOn : (Except.ok feed >>= Parser.program) = Parser.program feed := rfl
    rw [goesOn]
    cases read : Parser.program feed with
    | error failure => simp
    | ok answer =>
      obtain ⟨tree, behind⟩ := answer
      simp [h]

theorem Program.parse_eq_ok_iff_phrase {source : String} {program : Program} :
    Program.parse source = .ok program ↔
      ∃ (tokens : List Token) (phrase : ProgramPhrase), tokenize source = .ok tokens ∧
        phrase.symbols = tokens.map Token.symbol ∧ (∀ token ∈ tokens, token.symbol.InRange) ∧
        phrase.tree = program := by
  simp only [Program.parse_eq_ok_iff_feed, program_eq_ok_iff, tokenize, Feed.tokens_eq_ok_iff]
  generalize (Cursor.ofText source).feed = feed
  constructor
  · rintro ⟨behind, guarded, phrase, passed, rfl, ends⟩
    obtain ⟨finished, -, same, ranges⟩ := Feed.passes_all_iff.mp ⟨guarded, passed, ends⟩
    refine ⟨_, phrase, ⟨finished, rfl⟩, by rw [same, List.map_map]; rfl, ?_, rfl⟩
    intro token member
    obtain ⟨lexeme, lexemeMember, rfl⟩ := List.mem_map.mp member
    refine ranges _ ?_
    rw [same]
    exact List.mem_map_of_mem lexemeMember
  · rintro ⟨_, phrase, ⟨finished, rfl⟩, same, ranges, rfl⟩
    rw [List.map_map] at same
    obtain ⟨guarded, passed, ends⟩ := Feed.passes_all_iff.mpr ⟨finished, rfl, same, by
      intro symbol member
      rw [same] at member
      obtain ⟨lexeme, lexemeMember, rfl⟩ := List.mem_map.mp member
      exact ranges _ (List.mem_map_of_mem lexemeMember)⟩
    exact ⟨_, guarded, phrase, passed, rfl, ends⟩

/-- Reading succeeds exactly on the tokens of a derivation, and gives its tree; no other derivation
    has these tokens. -/
theorem Program.parse_eq_ok_iff_derives :
    (∀ (source : String) (program : Program), Program.parse source = .ok program ↔
      ∃ (tokens : List Token) (phrase : ProgramPhrase), tokenize source = .ok tokens ∧
        phrase.symbols = tokens.map Token.symbol ∧ (∀ token ∈ tokens, token.symbol.InRange) ∧
        phrase.tree = program) ∧
    Function.Injective ProgramPhrase.symbols :=
  ⟨fun _ _ => Program.parse_eq_ok_iff_phrase, ProgramPhrase.symbols_injective⟩

end TinyScript
