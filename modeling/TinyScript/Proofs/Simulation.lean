import TinyScript.Proofs.Acceptance

/-!
# What readers see of a feed

Readers look at the kinds and the texts of tokens, one token at a time. Two feeds that cannot be
told apart in this way are read alike: with the same results, and with errors that correspond. A
relation of feeds is *lawful* if it is kept by eating tokens; then it is kept by every reader, on
feeds that are shorter than the reader's bound. The bounds of the two readings need not be the same,
so that a bound plays no role where it is large enough.

The second reading may also stop early, with a failure that the relation allows for.
-/

namespace TinyScript

/-- How two readings correspond. -/
structure FeedRelation where
  Feeds : Feed → Feed → Prop
  Tokens : Token → Token → Prop
  Failures : Failure → Failure → Prop
  /-- The failures with which the second reading may stop while the first one goes on. -/
  Stops : Failure → Prop

namespace FeedRelation

variable {α β γ δ : Type}

/-- The results of two readings correspond, and each reading has taken at least the given number of
    tokens from a feed of the given length. -/
inductive Outcomes (relation : FeedRelation) (values : α → β → Prop) (taken length length' : Nat) :
    Except Failure (α × Feed) → Except Failure (β × Feed) → Prop
  | ok {value : α} {value' : β} {feed feed' : Feed} (same : values value value')
      (related : relation.Feeds feed feed') (less : feed.lexemes.length + taken ≤ length)
      (less' : feed'.lexemes.length + taken ≤ length') :
      Outcomes relation values taken length length' (.ok (value, feed)) (.ok (value', feed'))
  | error {failure failure' : Failure} (related : relation.Failures failure failure') :
      Outcomes relation values taken length length' (.error failure) (.error failure')
  | stopped {result : Except Failure (α × Feed)} {failure : Failure} (h : relation.Stops failure) :
      Outcomes relation values taken length length' result (.error failure)

/-- Eating a token keeps the relation. -/
structure Lawful (relation : FeedRelation) : Prop where
  lookahead : ∀ {feed feed'}, relation.Feeds feed feed' → feed.lookahead = feed'.lookahead
  symbol : ∀ {token token'}, relation.Tokens token token' → token.symbol = token'.symbol
  eat : ∀ {feed feed'} kind, relation.Feeds feed feed' →
    relation.Outcomes relation.Tokens 1 feed.lexemes.length feed'.lexemes.length
      (Parser.eat kind feed) (Parser.eat kind feed')
  unexpected : ∀ {feed feed'} expected, relation.Feeds feed feed' →
    relation.Failures (feed.unexpected expected) (feed'.unexpected expected)
  tooLarge : ∀ {token token' feed feed'}, relation.Tokens token token' →
    relation.Feeds feed feed' →
    relation.Failures ⟨.grammatical (.numberTooLarge token.text token.start), feed.resume⟩
      ⟨.grammatical (.numberTooLarge token'.text token'.start), feed'.resume⟩

/-- Two readers keep the relation on feeds below their bounds, and take at least the given number of
    tokens. -/
def Relates (relation : FeedRelation) (bound bound' taken : Nat) (values : α → β → Prop)
    (reader : Parser α) (reader' : Parser β) : Prop :=
  ∀ ⦃feed feed' : Feed⦄, relation.Feeds feed feed' → feed.lexemes.length < bound →
    feed'.lexemes.length < bound' →
    relation.Outcomes values taken feed.lexemes.length feed'.lexemes.length
      (reader feed) (reader' feed')

variable {relation : FeedRelation} {bound bound' taken : Nat}

/-! ## Readers put together -/

theorem Outcomes.weaken {values : α → β → Prop} {length length' longer longer' fewer : Nat}
    {result : Except Failure (α × Feed)} {result' : Except Failure (β × Feed)}
    (h : relation.Outcomes values taken length length' result result')
    (le : length + fewer ≤ longer + taken) (le' : length' + fewer ≤ longer' + taken) :
    relation.Outcomes values fewer longer longer' result result' := by
  cases h with
  | ok same related less less' => exact .ok same related (by omega) (by omega)
  | error related => exact .error related
  | stopped h => exact .stopped h

theorem Relates.mono {values : α → β → Prop} {reader : Parser α} {reader' : Parser β}
    {less less' : Nat} (h : relation.Relates bound bound' taken values reader reader')
    (le : less ≤ bound) (le' : less' ≤ bound') :
    relation.Relates less less' taken values reader reader' := by
  intro feed feed' related short short'
  exact h related (Nat.lt_of_lt_of_le short le) (Nat.lt_of_lt_of_le short' le')

/-- How many tokens were taken can be left open. -/
theorem Relates.relax {values : α → β → Prop} {reader : Parser α} {reader' : Parser β}
    (h : relation.Relates bound bound' taken values reader reader') :
    relation.Relates bound bound' 0 values reader reader' := by
  intro feed feed' related short short'
  exact (h related short short').weaken (by omega) (by omega)

theorem relates_pure {values : α → β → Prop} {value : α} {value' : β}
    (h : values value value') :
    relation.Relates bound bound' 0 values (pure value) (pure value') := by
  intro feed feed' related short short'
  exact .ok h related (Nat.le_refl _) (Nat.le_refl _)

theorem Relates.bind {values : α → β → Prop} {values' : γ → δ → Prop} {reader : Parser α}
    {reader' : Parser β} {more : α → Parser γ} {more' : β → Parser δ}
    (h : relation.Relates bound bound' taken values reader reader')
    (goesOn : ∀ value value', values value value' →
      relation.Relates (bound - taken) (bound' - taken) 0 values' (more value) (more' value')) :
    relation.Relates bound bound' taken values' (reader >>= more) (reader' >>= more') := by
  intro feed feed' related short short'
  change relation.Outcomes _ _ _ _ (reader feed >>= fun (value, mid) => more value mid)
    (reader' feed' >>= fun (value, mid) => more' value mid)
  have outcome := h related short short'
  generalize reader feed = result, reader' feed' = result' at outcome
  cases outcome with
  | error related => exact .error related
  | stopped h => exact .stopped h
  | ok same related less less' =>
    exact (goesOn _ _ same related (by omega) (by omega)).weaken (by omega) (by omega)

/-- `bind`, where neither the bound nor the number of tokens taken matters. -/
theorem Relates.andThen {values : α → β → Prop} {values' : γ → δ → Prop} {reader : Parser α}
    {reader' : Parser β} {more : α → Parser γ} {more' : β → Parser δ}
    (h : relation.Relates bound bound' taken values reader reader')
    (goesOn : ∀ value value', values value value' →
      relation.Relates bound bound' 0 values' (more value) (more' value')) :
    relation.Relates bound bound' 0 values' (reader >>= more) (reader' >>= more') :=
  (h.bind fun value value' same =>
    (goesOn value value' same).mono (Nat.sub_le _ _) (Nat.sub_le _ _)).relax

theorem Relates.discard {values : α → β → Prop} {reader : Parser α} {reader' : Parser β}
    (h : relation.Relates bound bound' taken values reader reader') :
    relation.Relates bound bound' taken Eq (discard reader) (discard reader') :=
  h.bind fun _ _ _ => relates_pure rfl

namespace Lawful

variable (lawful : relation.Lawful)
include lawful

theorem kind? {feed feed' : Feed} (h : relation.Feeds feed feed') : feed.kind? = feed'.kind? := by
  have same := congrArg (Option.map Symbol.kind) (lawful.lookahead h)
  simpa [Feed.lookahead, Feed.kind?, Function.comp_def, Token.symbol] using same

theorem operator? {feed feed' : Feed} (h : relation.Feeds feed feed')
    (operators : List Operator) : feed.operator? operators = feed'.operator? operators := by
  rw [Feed.operator?, Feed.operator?, lawful.lookahead h]

theorem lexemes_eq_nil_iff {feed feed' : Feed} (h : relation.Feeds feed feed') :
    feed.lexemes = [] ↔ feed'.lexemes = [] := by
  have same := lawful.lookahead h
  cases lexemes : feed.lexemes <;> cases lexemes' : feed'.lexemes <;>
    simp [Feed.lookahead, lexemes, lexemes'] at same ⊢

theorem text {token token' : Token} (h : relation.Tokens token token') :
    token.text = token'.text :=
  congrArg Symbol.text (lawful.symbol h)

theorem relates_eat (kind : TokenKind) :
    relation.Relates bound bound' 1 relation.Tokens (Parser.eat kind) (Parser.eat kind) := by
  intro feed feed' related short short'
  exact lawful.eat kind related

theorem relates_unexpected (expected : Expected) {values : α → β → Prop} :
    relation.Relates bound bound' taken values (Parser.unexpected expected)
      (Parser.unexpected expected) := by
  intro feed feed' related short short'
  exact .error (lawful.unexpected expected related)

/-- Readers that go on by the lookahead. -/
theorem relates_peek {values : α → β → Prop} {more : Option Token → Parser α}
    {more' : Option Token → Parser β}
    (h : ∀ token token' : Option Token, token.map Token.symbol = token'.map Token.symbol →
      relation.Relates bound bound' taken values (more token) (more' token')) :
    relation.Relates bound bound' taken values (Parser.peek >>= more) (Parser.peek >>= more') := by
  intro feed feed' related short short'
  rw [Parser.peek_bind, Parser.peek_bind]
  have same := lawful.lookahead related
  exact h _ _ (by simpa [Feed.lookahead, Function.comp_def] using same) related short short'

/-- Readers that go on by whether the lookahead is of a kind. -/
theorem relates_check (kind : TokenKind) {values : α → β → Prop} {more : Bool → Parser α}
    {more' : Bool → Parser β}
    (h : ∀ found, relation.Relates bound bound' taken values (more found) (more' found)) :
    relation.Relates bound bound' taken values (Parser.check kind >>= more)
      (Parser.check kind >>= more') := by
  intro feed feed' related short short'
  rw [Parser.check_bind, Parser.check_bind, lawful.kind? related]
  exact h _ related short short'

/-! ## Expressions -/

theorem relates_literal :
    relation.Relates bound bound' 1 Eq Parser.literal Parser.literal := by
  unfold Parser.literal
  apply lawful.relates_peek
  intro ahead ahead' same
  have kinds := congrArg (Option.map Symbol.kind) same
  simp only [Option.map_map, Function.comp_def, Token.symbol] at kinds
  change ahead.map Token.kind = ahead'.map Token.kind at kinds
  rw [kinds]
  split
  · refine (lawful.relates_eat .number).bind ?_
    intro token token' same feed feed' related short short'
    rw [lawful.text same]
    cases Binary64.ofDigits? token'.text.toList with
    | some value => exact .ok rfl related (Nat.le_refl _) (Nat.le_refl _)
    | none =>
      have failures := lawful.tooLarge same related
      rw [lawful.text same] at failures
      exact .error failures
  · refine (lawful.relates_eat .string).bind ?_
    intro token token' same
    exact relates_pure (by rw [Token.unquoted, Token.unquoted, lawful.text same])
  · refine (lawful.relates_eat .identifier).bind ?_
    intro token token' same
    exact relates_pure (by rw [lawful.text same])
  · exact lawful.relates_unexpected .operand

theorem relates_factor {inner inner' : Parser Expression}
    (h : relation.Relates bound bound' 1 Eq inner inner') :
    relation.Relates (bound + 1) (bound' + 1) 1 Eq (Parser.factor inner)
      (Parser.factor inner') := by
  apply lawful.relates_check
  intro found
  cases found with
  | false => exact lawful.relates_literal
  | true =>
    refine (lawful.relates_eat .lParen).discard.bind ?_
    intro _ _ _
    refine h.andThen ?_
    rintro expression _ rfl
    refine (lawful.relates_eat .rParen).discard.andThen ?_
    intro _ _ _
    exact relates_pure rfl

omit lawful in
theorem operations_of_none {operators : List Operator} {feed : Feed}
    (none : feed.operator? operators = none) (operand : Parser Expression) (rounds : Nat)
    (left : Expression) :
    Parser.operations operators operand rounds left feed = .ok (left, feed) := by
  cases rounds with
  | zero => rfl
  | succ rounds => rw [Parser.operations, Parser.operator?_bind, none]; rfl

theorem relates_operations {operators : List Operator} {operand operand' : Parser Expression}
    (h : relation.Relates bound bound' 1 Eq operand operand') (rounds rounds' : Nat)
    (within : bound ≤ rounds + 1) (within' : bound' ≤ rounds' + 1) (left : Expression) :
    relation.Relates bound bound' 0 Eq (Parser.operations operators operand rounds left)
      (Parser.operations operators operand' rounds' left) := by
  induction rounds generalizing rounds' bound bound' left with
  | zero =>
    intro feed feed' related short short'
    have empty : feed.lexemes = [] := List.length_eq_zero_iff.mp (by omega)
    have stop : feed.operator? operators = none := by simp [Feed.operator?, Feed.lookahead, empty]
    have stop' := (lawful.operator? related operators).symm.trans stop
    rw [operations_of_none stop, operations_of_none stop']
    exact .ok rfl related (Nat.le_refl _) (Nat.le_refl _)
  | succ rounds ih =>
    intro feed feed' related short short'
    cases found : feed.operator? operators with
    | none =>
      have stop' := (lawful.operator? related operators).symm.trans found
      rw [operations_of_none found, operations_of_none stop']
      exact .ok rfl related (Nat.le_refl _) (Nat.le_refl _)
    | some operator =>
      have found' := (lawful.operator? related operators).symm.trans found
      -- The second reading has a round left, since it sees the operator too.
      have nonempty : feed'.lexemes ≠ [] := by
        intro empty
        simp [Feed.operator?, Feed.lookahead, empty] at found'
      have positive := List.length_pos_iff.mpr nonempty
      obtain ⟨rounds', rfl⟩ : ∃ less, rounds' = less + 1 := ⟨rounds' - 1, by omega⟩
      rw [Parser.operations, Parser.operations, Parser.operator?_bind, Parser.operator?_bind, found,
        found']
      refine ((lawful.relates_eat .operator).discard.bind ?_).relax related short short'
      intro _ _ _
      refine (h.mono (Nat.sub_le _ _) (Nat.sub_le _ _)).andThen ?_
      rintro right _ rfl
      exact ih (h.mono (Nat.sub_le _ _) (Nat.sub_le _ _)) rounds' (by omega) (by omega) _

theorem relates_chain {operators : List Operator} {operand operand' : Parser Expression}
    (h : relation.Relates (bound + 2) (bound' + 2) 1 Eq operand operand') :
    relation.Relates (bound + 2) (bound' + 2) 1 Eq (Parser.chain bound operators operand)
      (Parser.chain bound' operators operand') := by
  refine h.bind ?_
  rintro left _ rfl
  exact lawful.relates_operations (h.mono (Nat.sub_le _ _) (Nat.sub_le _ _)) _ _ (by omega)
    (by omega) _

omit lawful in
/-- At the end of the input no expression starts. -/
theorem expression_of_empty {feed : Feed} (empty : feed.lexemes = []) (bound : Nat) :
    Parser.expression bound feed = .error (feed.unexpected .operand) := by
  obtain ⟨lexemes, ending⟩ := feed
  subst empty
  cases bound <;> rfl

/-- Readers that refuse the end of the input in the same way, one of which has a bound that allows
    for nothing else. -/
theorem relates_of_empty {reader reader' : Parser α} {expected : Expected}
    (fails : ∀ feed : Feed, feed.lexemes = [] → reader feed = .error (feed.unexpected expected))
    (fails' : ∀ feed : Feed, feed.lexemes = [] → reader' feed = .error (feed.unexpected expected))
    (least : bound = 1 ∨ bound' = 1) : relation.Relates bound bound' 1 Eq reader reader' := by
  intro feed feed' related short short'
  have empty_iff := lawful.lexemes_eq_nil_iff related
  have empty : feed.lexemes = [] := by
    rcases least with rfl | rfl
    · exact List.length_eq_zero_iff.mp (by omega)
    · exact empty_iff.mpr (List.length_eq_zero_iff.mp (by omega))
  rw [fails feed empty, fails' feed' (empty_iff.mp empty)]
  exact .error (lawful.unexpected _ related)

theorem relates_expression (bound bound' : Nat) :
    relation.Relates (bound + 1) (bound' + 1) 1 Eq (Parser.expression bound)
      (Parser.expression bound') := by
  induction bound generalizing bound' with
  | zero =>
    exact lawful.relates_of_empty (fun _ empty => expression_of_empty empty _)
      (fun _ empty => expression_of_empty empty _) (.inl rfl)
  | succ bound ih =>
    cases bound' with
    | zero =>
      exact lawful.relates_of_empty (fun _ empty => expression_of_empty empty _)
        (fun _ empty => expression_of_empty empty _) (.inr rfl)
    | succ bound' =>
      exact lawful.relates_chain (lawful.relates_chain (lawful.relates_factor (ih bound')))

/-! ## Statements -/

theorem relates_variableDeclaration (bound bound' : Nat) :
    relation.Relates (bound + 2) (bound' + 2) 1 Eq (Parser.variableDeclaration bound)
      (Parser.variableDeclaration bound') := by
  refine (lawful.relates_eat .varKeyword).discard.bind ?_
  intro _ _ _
  refine (lawful.relates_eat .identifier).andThen ?_
  intro name name' sameName
  refine (lawful.relates_eat .colon).discard.andThen ?_
  intro _ _ _
  refine (lawful.relates_eat .typeKeyword).andThen ?_
  intro typeName typeName' sameType
  refine (lawful.relates_eat .assign).discard.andThen ?_
  intro _ _ _
  refine (lawful.relates_expression bound bound').andThen ?_
  rintro value _ rfl
  refine (lawful.relates_eat .semicolon).discard.andThen ?_
  intro _ _ _
  exact relates_pure (by rw [lawful.text sameName, lawful.text sameType])

theorem relates_returnStatement (bound bound' : Nat) :
    relation.Relates (bound + 2) (bound' + 2) 1 Eq (Parser.returnStatement bound)
      (Parser.returnStatement bound') := by
  refine (lawful.relates_eat .returnKeyword).discard.bind ?_
  intro _ _ _
  apply lawful.relates_check
  intro found
  cases found with
  | true =>
    refine (lawful.relates_eat .semicolon).discard.andThen ?_
    intro _ _ _
    exact relates_pure rfl
  | false =>
    refine (lawful.relates_expression bound bound').andThen ?_
    rintro argument _ rfl
    refine (lawful.relates_eat .semicolon).discard.andThen ?_
    intro _ _ _
    exact relates_pure rfl

theorem relates_parameter :
    relation.Relates bound bound' 1 Eq Parser.parameter Parser.parameter := by
  refine (lawful.relates_eat .identifier).bind ?_
  intro name name' sameName
  refine (lawful.relates_eat .colon).discard.andThen ?_
  intro _ _ _
  refine (lawful.relates_eat .typeKeyword).andThen ?_
  intro typeName typeName' sameType
  exact relates_pure (by rw [lawful.text sameName, lawful.text sameType])

omit lawful in
theorem moreParameters_of_other {feed : Feed} (other : feed.kind? ≠ some .comma) (rounds : Nat) :
    Parser.moreParameters rounds feed = .ok ([], feed) := by
  cases rounds with
  | zero => rfl
  | succ rounds =>
    rw [Parser.moreParameters, Parser.check_bind, decide_eq_false other]
    rfl

theorem relates_moreParameters (rounds rounds' : Nat) (within : bound ≤ rounds + 1)
    (within' : bound' ≤ rounds' + 1) :
    relation.Relates bound bound' 0 Eq (Parser.moreParameters rounds)
      (Parser.moreParameters rounds') := by
  induction rounds generalizing rounds' bound bound' with
  | zero =>
    intro feed feed' related short short'
    have empty : feed.lexemes = [] := List.length_eq_zero_iff.mp (by omega)
    have other : feed.kind? ≠ some .comma := by simp [Feed.kind?, empty]
    have other' : feed'.kind? ≠ some .comma := by rwa [← lawful.kind? related]
    rw [moreParameters_of_other other, moreParameters_of_other other']
    exact .ok rfl related (Nat.le_refl _) (Nat.le_refl _)
  | succ rounds ih =>
    intro feed feed' related short short'
    by_cases comma : feed.kind? = some .comma
    · have comma' : feed'.kind? = some .comma := by rwa [← lawful.kind? related]
      have nonempty : feed'.lexemes ≠ [] := by
        intro empty
        simp [Feed.kind?, empty] at comma'
      have positive := List.length_pos_iff.mpr nonempty
      obtain ⟨rounds', rfl⟩ : ∃ less, rounds' = less + 1 := ⟨rounds' - 1, by omega⟩
      rw [Parser.moreParameters, Parser.moreParameters, Parser.check_bind, Parser.check_bind, comma,
        comma']
      refine ((lawful.relates_eat .comma).discard.bind ?_).relax related short short'
      intro _ _ _
      refine lawful.relates_parameter.andThen ?_
      rintro parameter _ rfl
      refine (ih rounds' (by omega) (by omega)).andThen ?_
      rintro more _ rfl
      exact relates_pure rfl
    · have other' : feed'.kind? ≠ some .comma := by rwa [← lawful.kind? related]
      rw [moreParameters_of_other comma, moreParameters_of_other other']
      exact .ok rfl related (Nat.le_refl _) (Nat.le_refl _)

theorem relates_parameters (bound bound' : Nat) :
    relation.Relates (bound + 1) (bound' + 1) 1 Eq (Parser.parameters bound)
      (Parser.parameters bound') := by
  refine (lawful.relates_eat .lParen).discard.bind ?_
  intro _ _ _
  apply lawful.relates_check
  intro found
  cases found with
  | true =>
    refine (lawful.relates_eat .rParen).discard.andThen ?_
    intro _ _ _
    exact relates_pure rfl
  | false =>
    refine lawful.relates_parameter.andThen ?_
    rintro first _ rfl
    refine (lawful.relates_moreParameters bound bound' (by omega) (by omega)).andThen ?_
    rintro more _ rfl
    refine (lawful.relates_eat .rParen).discard.andThen ?_
    intro _ _ _
    exact relates_pure rfl

section Body

variable {statement statement' : Parser Statement}

theorem relates_statementsToBrace
    (statements : relation.Relates bound bound' 1 Eq statement statement') (owner : String)
    (rounds rounds' : Nat) (within : bound ≤ rounds) (within' : bound' ≤ rounds') :
    relation.Relates bound bound' 0 Eq (Parser.statementsToBrace owner statement rounds)
      (Parser.statementsToBrace owner statement' rounds') := by
  induction rounds generalizing rounds' bound bound' with
  | zero =>
    intro feed feed' related short
    omega
  | succ rounds ih =>
    cases rounds' with
    | zero =>
      intro feed feed' related short short'
      omega
    | succ rounds' =>
      rw [Parser.statementsToBrace, Parser.statementsToBrace]
      apply lawful.relates_peek
      intro ahead ahead' same
      cases ahead with
      | none =>
        rw [Option.map_eq_none_iff.mp same.symm]
        exact lawful.relates_unexpected _
      | some token =>
        obtain ⟨token', rfl, symbols⟩ := Option.map_eq_some_iff.mp same.symm
        have kinds : token.kind = token'.kind := (congrArg Symbol.kind symbols).symm
        simp only [kinds]
        split
        · exact relates_pure rfl
        · refine (statements.bind ?_).relax
          rintro first _ rfl
          refine (ih (statements.mono (Nat.sub_le _ _) (Nat.sub_le _ _)) rounds' (by omega)
            (by omega)).andThen ?_
          rintro others _ rfl
          exact relates_pure rfl

theorem relates_statementsToEnd
    (statements : relation.Relates bound bound' 1 Eq statement statement')
    (rounds rounds' : Nat) (within : bound ≤ rounds) (within' : bound' ≤ rounds') :
    relation.Relates bound bound' 0 Eq (Parser.statementsToEnd statement rounds)
      (Parser.statementsToEnd statement' rounds') := by
  induction rounds generalizing rounds' bound bound' with
  | zero =>
    intro feed feed' related short
    omega
  | succ rounds ih =>
    cases rounds' with
    | zero =>
      intro feed feed' related short short'
      omega
    | succ rounds' =>
      rw [Parser.statementsToEnd, Parser.statementsToEnd]
      apply lawful.relates_peek
      intro ahead ahead' same
      cases ahead with
      | none =>
        rw [Option.map_eq_none_iff.mp same.symm]
        exact relates_pure rfl
      | some token =>
        obtain ⟨token', rfl, symbols⟩ := Option.map_eq_some_iff.mp same.symm
        refine (statements.bind ?_).relax
        rintro first _ rfl
        refine (ih (statements.mono (Nat.sub_le _ _) (Nat.sub_le _ _)) rounds' (by omega)
          (by omega)).andThen ?_
        rintro others _ rfl
        exact relates_pure rfl

theorem relates_functionDeclaration (bound bound' : Nat)
    (statements : relation.Relates (bound + 1) (bound' + 1) 1 Eq statement statement') :
    relation.Relates (bound + 2) (bound' + 2) 1 Eq (Parser.functionDeclaration bound statement)
      (Parser.functionDeclaration bound' statement') := by
  refine (lawful.relates_eat .functionKeyword).discard.bind ?_
  intro _ _ _
  refine (lawful.relates_eat .identifier).andThen ?_
  intro name name' sameName
  refine (lawful.relates_parameters bound bound').andThen ?_
  rintro parameters _ rfl
  refine (lawful.relates_eat .colon).discard.andThen ?_
  intro _ _ _
  refine (lawful.relates_eat .typeKeyword).andThen ?_
  intro returnType returnType' sameType
  rw [lawful.text sameName, lawful.text sameType]
  have block : relation.Relates (bound + 1) (bound' + 1) 1 Eq
      (Parser.block bound name'.text statement) (Parser.block bound' name'.text statement') := by
    refine (lawful.relates_eat .lBrace).discard.bind ?_
    intro _ _ _
    refine (lawful.relates_statementsToBrace
      (statements.mono (Nat.sub_le _ _) (Nat.sub_le _ _)) _ bound bound' (by omega)
      (by omega)).andThen ?_
    rintro body _ rfl
    refine (lawful.relates_eat .rBrace).discard.andThen ?_
    intro _ _ _
    exact relates_pure rfl
  refine block.andThen ?_
  rintro body _ rfl
  exact relates_pure rfl

end Body

omit lawful in
/-- At the end of the input no statement starts. -/
theorem statement_of_empty {feed : Feed} (empty : feed.lexemes = []) (bound : Nat) :
    Parser.statement bound feed = .error (feed.unexpected .statement) := by
  obtain ⟨lexemes, ending⟩ := feed
  subst empty
  cases bound <;> rfl

theorem relates_statement (bound bound' : Nat) :
    relation.Relates (bound + 1) (bound' + 1) 1 Eq (Parser.statement bound)
      (Parser.statement bound') := by
  induction bound generalizing bound' with
  | zero =>
    exact lawful.relates_of_empty (fun _ empty => statement_of_empty empty _)
      (fun _ empty => statement_of_empty empty _) (.inl rfl)
  | succ bound ih =>
    cases bound' with
    | zero =>
      exact lawful.relates_of_empty (fun _ empty => statement_of_empty empty _)
        (fun _ empty => statement_of_empty empty _) (.inr rfl)
    | succ bound' =>
      rw [Parser.statement, Parser.statement]
      apply lawful.relates_peek
      intro ahead ahead' same
      have kinds := congrArg (Option.map Symbol.kind) same
      simp only [Option.map_map, Function.comp_def, Token.symbol] at kinds
      change ahead.map Token.kind = ahead'.map Token.kind at kinds
      rw [kinds]
      split
      · exact lawful.relates_variableDeclaration bound bound'
      · exact lawful.relates_functionDeclaration bound bound' (ih bound')
      · exact lawful.relates_returnStatement bound bound'
      · exact lawful.relates_unexpected .statement

/-- Related feeds are read as the same program, or with failures that correspond. -/
theorem outcomes_program {feed feed' : Feed} (related : relation.Feeds feed feed') :
    relation.Outcomes Eq 0 feed.lexemes.length feed'.lexemes.length (Parser.program feed)
      (Parser.program feed') := by
  have statements := lawful.relates_statementsToEnd
    ((lawful.relates_statement (feed.lexemes.length + 1) (feed'.lexemes.length + 1)).mono
      (Nat.le_succ _) (Nat.le_succ _))
    (feed.lexemes.length + 1) (feed'.lexemes.length + 1) (Nat.le_refl _) (Nat.le_refl _)
  have programs : relation.Relates (feed.lexemes.length + 1) (feed'.lexemes.length + 1) 0 Eq
      (Program.mk <$> Parser.statementsToEnd (Parser.statement (feed.lexemes.length + 1))
        (feed.lexemes.length + 1))
      (Program.mk <$> Parser.statementsToEnd (Parser.statement (feed'.lexemes.length + 1))
        (feed'.lexemes.length + 1)) :=
    statements.andThen fun _ _ same => relates_pure (congrArg Program.mk same)
  exact programs related (Nat.lt_succ_self _) (Nat.lt_succ_self _)

end Lawful

end FeedRelation

end TinyScript
