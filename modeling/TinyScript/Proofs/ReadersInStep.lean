import TinyScript.Proofs.ReadingInPlace

/-!
# Readers in step

Reading in place is in step with reading from a feed: whatever a reader of feeds answers, the reader
in place answers it and stops at the same place, with the token that comes next as its lookahead. So
no access is out of range while a program is read, no string is cut inside a character, and the
limit of nesting and of rounds is never reached.
-/

namespace TinyScript

theorem Parser.bind_of_error {α β : Type} {reader : Parser α} {feed : Feed} {failure : Failure}
    (h : reader feed = .error failure) (more : α → Parser β) :
    (reader >>= more) feed = .error failure :=
  bind_eq_error_iff.mpr (.inl h)

/-- The token of a step. -/
def Step.token? : Step → Option Token
  | token found _ => some found
  | _ => none

/-- The reading in place whose lookahead is the token behind a cursor. -/
def OpenReading.ahead (text : List Char) (cursor : Cursor) : OpenReading :=
  ⟨⟨text.toArray, cursor.next.cursor.position⟩, cursor.next.token?⟩

namespace PlaceReader

variable {α β : Type} {text : List Char} {bound taken : Nat} {cursor : Cursor}

/-- The outcome in place is that of a reader of feeds, which has taken at least the given number of
    tokens from a feed of the given length. -/
inductive InStep (text : List Char) (taken length : Nat) :
    Except Failure (α × Feed) → Option (Except ParseError α × OpenReading) → Prop
  | ok {value : α} {cursor : Cursor} (inText : cursor.IsIn text) (guarded : cursor.feed.Guarded)
      (less : cursor.feed.lexemes.length + taken ≤ length) :
      InStep text taken length (.ok (value, cursor.feed)) (some (.ok value, .ahead text cursor))
  | error {failure : Failure} {lookahead : Option Token} :
      InStep text taken length (.error failure)
        (some (.error failure.error, ⟨⟨text.toArray, failure.resume.position⟩, lookahead⟩))

/-- A reader in place does what a reader of feeds does on feeds below its bound, and takes at least
    the given number of tokens. -/
def Follows (text : List Char) (bound taken : Nat) (reader : Parser α) (inPlace : PlaceReader α) :
    Prop :=
  ∀ ⦃cursor : Cursor⦄, cursor.IsIn text → cursor.feed.Guarded →
    cursor.feed.lexemes.length < bound →
    InStep text taken cursor.feed.lexemes.length (reader cursor.feed)
      (inPlace (.ahead text cursor))

/-! ### Readers put together -/

theorem InStep.weaken {length longer fewer : Nat} {result : Except Failure (α × Feed)}
    {outcome : Option (Except ParseError α × OpenReading)}
    (h : InStep text taken length result outcome) (le : length + fewer ≤ longer + taken) :
    InStep text fewer longer result outcome := by
  cases h with
  | ok inText guarded less => exact .ok inText guarded (by omega)
  | error => exact .error

theorem InStep.answers {length : Nat} {result : Except Failure (α × Feed)}
    {outcome : Option (Except ParseError α × OpenReading)}
    (h : InStep text taken length result outcome) :
    (∃ value cursor, result = .ok (value, Cursor.feed cursor) ∧
      outcome = some (.ok value, .ahead text cursor)) ∨
    ∃ failure last, result = .error failure ∧
      outcome =
        some (.error failure.error, ⟨⟨text.toArray, failure.resume.position⟩, last⟩) := by
  cases h with
  | ok inText guarded less => exact .inl ⟨_, _, rfl, rfl⟩
  | error => exact .inr ⟨_, _, rfl, rfl⟩

variable {reader : Parser α} {inPlace : PlaceReader α}

theorem Follows.mono {less : Nat} (h : Follows text bound taken reader inPlace)
    (le : less ≤ bound) : Follows text less taken reader inPlace := by
  intro cursor inText guarded short
  exact h inText guarded (Nat.lt_of_lt_of_le short le)

/-- How many tokens were taken can be left open. -/
theorem Follows.relax (h : Follows text bound taken reader inPlace) :
    Follows text bound 0 reader inPlace := by
  intro cursor inText guarded short
  exact (h inText guarded short).weaken (by omega)

theorem follows_pure (value : α) : Follows text bound 0 (pure value) (pure value) := by
  intro cursor inText guarded short
  exact .ok inText guarded (Nat.le_refl _)

theorem Follows.bind {more : α → Parser β} {more' : α → PlaceReader β}
    (h : Follows text bound taken reader inPlace)
    (goesOn : ∀ value, Follows text (bound - taken) 0 (more value) (more' value)) :
    Follows text bound taken (reader >>= more) (inPlace >>= more') := by
  intro cursor inText guarded short
  have first := h inText guarded short
  generalize read : reader cursor.feed = result,
    readInPlace : inPlace (.ahead text cursor) = outcome at first
  cases first with
  | @ok value behind inText guarded less =>
    rw [Parser.bind_of_ok read, Refusable.bind_of_ok _ readInPlace]
    exact (goesOn value inText guarded (by omega)).weaken (by omega)
  | @error failure lookahead =>
    rw [Parser.bind_of_error read, Refusable.bind_of_error _ readInPlace]
    exact .error

/-- Binding where neither the bound nor the number of tokens taken matters. -/
theorem Follows.andThen {more : α → Parser β} {more' : α → PlaceReader β}
    (h : Follows text bound taken reader inPlace)
    (goesOn : ∀ value, Follows text bound 0 (more value) (more' value)) :
    Follows text bound 0 (reader >>= more) (inPlace >>= more') :=
  (h.bind fun value => (goesOn value).mono (Nat.sub_le _ _)).relax

theorem Follows.discard (h : Follows text bound taken reader inPlace) :
    Follows text bound taken (discard reader) (discard inPlace) :=
  h.bind fun _ => follows_pure _

/-! ### The lookahead -/

theorem lookahead_ahead (text : List Char) (cursor : Cursor) :
    (OpenReading.ahead text cursor).lookahead = cursor.feed.lexemes.head?.map Lexeme.token := by
  cases next : cursor.next with
  | finish behind =>
    rw [Cursor.feed_of_finish next, OpenReading.ahead, next]
    rfl
  | fault error behind =>
    rw [Cursor.feed_of_fault next, OpenReading.ahead, next]
    rfl
  | token token behind =>
    rw [Cursor.feed_of_next next, OpenReading.ahead, next]
    rfl

theorem peek_bind (more : Option Token → PlaceReader α) (cursor : Cursor) :
    (peek >>= more) (.ahead text cursor) =
      more (cursor.feed.lexemes.head?.map Lexeme.token) (.ahead text cursor) := by
  rw [← lookahead_ahead text]
  rfl

theorem check_bind (kind : TokenKind) (more : Bool → PlaceReader α) (cursor : Cursor) :
    (check kind >>= more) (.ahead text cursor) =
      more ((cursor.feed.lexemes.head?.map Lexeme.token).any (·.kind = kind))
        (.ahead text cursor) := by
  rw [← lookahead_ahead text]
  rfl

theorem operator?_bind (operators : List Operator) (more : Option Operator → PlaceReader α)
    (cursor : Cursor) :
    (operator? operators >>= more) (.ahead text cursor) =
      more (cursor.feed.operator? operators) (.ahead text cursor) := by
  apply Refusable.bind_of_ok
  rw [operator?, peek_bind]
  cases lexemes : cursor.feed.lexemes with
  | nil =>
    simp only [Feed.operator?, Feed.lookahead, lexemes]
    rfl
  | cons lexeme rest =>
    simp only [Feed.operator?, Feed.lookahead, lexemes, List.head?_cons, Option.map_some,
      Option.bind_some, Token.symbol]
    split <;> rfl

/-- Readers that go on by the lookahead. -/
theorem follows_peek {more : Option Token → Parser α} {more' : Option Token → PlaceReader α}
    (h : ∀ ahead, Follows text bound taken (more ahead) (more' ahead)) :
    Follows text bound taken (Parser.peek >>= more) (peek >>= more') := by
  intro cursor inText guarded short
  rw [Parser.peek_bind, peek_bind]
  exact h _ inText guarded short

theorem follows_unexpected (expected : Expected) :
    Follows text bound taken (Parser.unexpected expected : Parser α) (unexpected expected) := by
  intro cursor inText guarded short
  have refused : Parser.unexpected expected cursor.feed =
      (.error (cursor.feed.unexpected expected) : Except Failure (α × Feed)) := rfl
  have refusedInPlace : (unexpected expected : PlaceReader α) (.ahead text cursor) =
      some (.error (cursor.feed.unexpected expected).error,
        ⟨⟨text.toArray, (cursor.feed.unexpected expected).resume.position⟩,
          cursor.next.token?⟩) := by
    cases next : cursor.next with
    | fault error behind => exact absurd next (Cursor.next_ne_fault guarded)
    | finish behind =>
      rw [Cursor.feed_of_finish next, OpenReading.ahead, next]
      rfl
    | token token behind =>
      rw [Cursor.feed_of_next next, OpenReading.ahead, next]
      rfl
  rw [refused, refusedInPlace]
  exact .error

/-- The next token becomes the lookahead. -/
theorem pull_of_guarded (inText : cursor.IsIn text) (guarded : cursor.feed.Guarded)
    (lookahead : Option Token) :
    pull ⟨⟨text.toArray, cursor.position⟩, lookahead⟩ = some (.ok (), .ahead text cursor) := by
  have moved := ArrayCursor.next_eq inText
  rw [pull, Refusable.bind_get, Refusable.bind_access _ moved, OpenReading.ahead]
  cases next : cursor.next with
  | fault error behind => exact absurd next (Cursor.next_ne_fault guarded)
  | finish behind => rfl
  | token token behind => rfl

/-- A fault in the text is reported when it would become the lookahead. -/
theorem pull_of_fault {error : LexicalError} {behind : Cursor} (inText : cursor.IsIn text)
    (next : cursor.next = .fault error behind) (lookahead : Option Token) :
    pull ⟨⟨text.toArray, cursor.position⟩, lookahead⟩ =
      some (.error (.lexical error), ⟨⟨text.toArray, behind.position⟩, lookahead⟩) := by
  have moved := ArrayCursor.next_eq inText
  rw [pull, Refusable.bind_get, Refusable.bind_access _ moved, next]
  rfl

/-- The lookahead is taken before the token behind it is looked for. -/
theorem eat_of_kind {token : Token} {kind : TokenKind} (fits : token.kind = kind)
    (place : ArrayCursor) :
    eat kind ⟨place, some token⟩ = (do pull; return token : PlaceReader Token) ⟨place, none⟩ := by
  have ahead : peek ⟨place, some token⟩ = some (.ok (some token), ⟨place, some token⟩) := rfl
  rw [eat, Refusable.bind_of_ok _ ahead]
  simp only [if_pos fits]
  rfl

theorem eat_of_other {token : Token} {kind : TokenKind} (other : token.kind ≠ kind)
    (place : ArrayCursor) :
    eat kind ⟨place, some token⟩ = some (.error (.grammatical
      (.unexpected (.token kind) (some token) token.start)), ⟨place, some token⟩) := by
  have ahead : peek ⟨place, some token⟩ = some (.ok (some token), ⟨place, some token⟩) := rfl
  rw [eat, Refusable.bind_of_ok _ ahead]
  simp only [if_neg other]
  rfl

/-- A token that is eaten has the kind that was asked for and is spelled accordingly. -/
theorem eat_eq (inText : cursor.IsIn text) (guarded : cursor.feed.Guarded) (kind : TokenKind) :
    (∃ token behind, Spells kind token.text.toList ∧ behind.IsIn text ∧ behind.feed.Guarded ∧
      behind.feed.lexemes.length + 1 ≤ cursor.feed.lexemes.length ∧
      Parser.eat kind cursor.feed = .ok (token, behind.feed) ∧
      eat kind (.ahead text cursor) = some (.ok token, .ahead text behind)) ∨
    ∃ failure lookahead, Parser.eat kind cursor.feed = .error failure ∧
      eat kind (.ahead text cursor) =
        some (.error failure.error, ⟨⟨text.toArray, failure.resume.position⟩, lookahead⟩) := by
  cases next : cursor.next with
  | fault error behind => exact absurd next (Cursor.next_ne_fault guarded)
  | finish behind =>
    refine .inr ⟨cursor.feed.unexpected (.token kind), none, ?_, ?_⟩
    · rw [Cursor.feed_of_finish next]
      rfl
    · rw [Cursor.feed_of_finish next, OpenReading.ahead, next]
      rfl
  | token token behind =>
    have further : behind.IsIn text := (Cursor.Reaches.token .here next).isIn inText
    by_cases fits : token.kind = kind
    · have eaten : Parser.eat kind cursor.feed =
          (do return (token, ← behind.feed.guard) : Except Failure (Token × Feed)) := by
        rw [Cursor.feed_of_next next]
        simp only [Parser.eat, if_pos fits]
      have eatenInPlace : eat kind (.ahead text cursor) =
          (do pull; return token : PlaceReader Token) ⟨⟨text.toArray, behind.position⟩, none⟩ := by
        rw [OpenReading.ahead, next]
        exact eat_of_kind fits _
      -- Only now is the token behind the eaten one looked for.
      rcases Cursor.guard_feed behind with ⟨guard, guarded⟩ | ⟨error, last, fault, guard⟩
      · refine .inl ⟨token, behind, ?_, further, guarded, ?_, ?_, ?_⟩
        · exact fits ▸ Cursor.spells_of_next next
        · rw [Cursor.feed_of_next next]
          exact Nat.le_refl _
        · rw [eaten, guard]
          rfl
        · rw [eatenInPlace, Refusable.bind_of_ok _ (pull_of_guarded further guarded none)]
          rfl
      · refine .inr ⟨⟨.lexical error, last⟩, none, ?_, ?_⟩
        · rw [eaten, guard]
          rfl
        · rw [eatenInPlace, Refusable.bind_of_error _ (pull_of_fault further fault none)]
    · refine .inr ⟨cursor.feed.unexpected (.token kind), some token, ?_, ?_⟩
      · rw [Cursor.feed_of_next next]
        simp only [Parser.eat, if_neg fits]
      · rw [Cursor.feed_of_next next, OpenReading.ahead, next]
        exact eat_of_other fits _

theorem follows_eat (kind : TokenKind) :
    Follows text bound 1 (Parser.eat kind) (eat kind) := by
  intro cursor inText guarded short
  rcases eat_eq inText guarded kind with
    ⟨token, behind, -, further, guarded, less, eaten, eatenInPlace⟩ |
    ⟨failure, lookahead, refused, refusedInPlace⟩
  · rw [eaten, eatenInPlace]
    exact .ok further guarded less
  · rw [refused, refusedInPlace]
    exact .error

/-- Readers that go on by whether the lookahead is of a kind. -/
theorem follows_check (kind : TokenKind) {more : Bool → Parser α} {more' : Bool → PlaceReader α}
    (h : ∀ found, Follows text bound taken (more found) (more' found)) :
    Follows text bound taken (Parser.check kind >>= more) (check kind >>= more') := by
  have peeks : Follows text bound taken
      (Parser.peek >>= fun ahead => more (ahead.any (·.kind = kind)))
      (peek >>= fun ahead => more' (ahead.any (·.kind = kind))) :=
    follows_peek fun _ => h _
  exact peeks

/-! ### Expressions -/

/-- Cutting off the quotes by bytes is cutting off two characters. -/
theorem sliceBytes?_unquoted {token : Token} (spells : Spells .string token.text.toList) :
    sliceBytes? token.text 1 (token.text.utf8ByteSize - 1) = some token.unquoted := by
  obtain ⟨quote, content, -, -, text, -, -, -, cut⟩ := exists_quoted_of_spells spells
  rw [cut, Token.unquoted, text, String.toList_ofList, List.tail_cons, List.dropLast_concat]

theorem follows_tooLarge (token : Token) :
    Follows text bound taken
      (do throw ⟨.grammatical (.numberTooLarge token.text token.start), (← get).resume⟩ : Parser α)
      (throw (.grammatical (.numberTooLarge token.text token.start))) := by
  intro cursor inText guarded short
  have place : OpenReading.ahead text cursor =
      ⟨⟨text.toArray, cursor.feed.resume.position⟩, cursor.next.token?⟩ := by
    rw [Cursor.resume_feed]
    rfl
  rw [place]
  exact .error

theorem follows_literal : Follows text bound 1 Parser.literal literal := by
  unfold Parser.literal literal
  apply follows_peek
  intro ahead
  generalize ahead.map Token.kind = kind
  cases kind with
  | none => exact follows_unexpected .operand
  | some kind =>
    cases kind with
    | number =>
      refine (follows_eat .number).bind ?_
      intro token
      cases Binary64.ofDigits? token.text.toList with
      | some value => exact follows_pure _
      | none => exact follows_tooLarge token
    | string =>
      intro cursor inText guarded short
      rcases eat_eq inText guarded .string with
        ⟨token, behind, spells, further, guarded, less, eaten, eatenInPlace⟩ |
        ⟨failure, lookahead, refused, refusedInPlace⟩
      · simp only
        rw [Parser.bind_of_ok eaten, Refusable.bind_of_ok _ eatenInPlace,
          Refusable.bind_access _ (sliceBytes?_unquoted spells)]
        exact .ok further guarded less
      · simp only
        rw [Parser.bind_of_error refused, Refusable.bind_of_error _ refusedInPlace]
        exact .error
    | identifier =>
      refine (follows_eat .identifier).bind ?_
      intro token
      exact follows_pure _
    | _ => exact follows_unexpected .operand

theorem follows_factor {inner : Parser Expression} {inner' : PlaceReader Expression}
    (h : Follows text bound 1 inner inner') :
    Follows text (bound + 1) 1 (Parser.factor inner) (factor inner') := by
  apply follows_check
  intro found
  cases found with
  | false => exact follows_literal
  | true =>
    refine (follows_eat .lParen).discard.bind ?_
    intro _
    refine h.andThen ?_
    intro expression
    refine (follows_eat .rParen).discard.andThen ?_
    intro _
    exact follows_pure expression

section

variable {operators : List Operator} {operand : Parser Expression}
  {operand' : PlaceReader Expression}

theorem follows_operations (h : Follows text bound 1 operand operand') (rounds limit : Nat)
    (within : bound ≤ rounds + 1) (enough : bound ≤ limit) (left : Expression) :
    Follows text bound 0 (Parser.operations operators operand rounds left)
      (operations operators operand' limit left) := by
  induction limit generalizing bound rounds left with
  | zero =>
    intro cursor inText guarded short
    omega
  | succ limit ih =>
    intro cursor inText guarded short
    rw [operations, operator?_bind]
    cases rounds with
    | zero =>
      have empty : cursor.feed.lexemes = [] := List.length_eq_zero_iff.mp (by omega)
      have stop : cursor.feed.operator? operators = none := by
        simp [Feed.operator?, Feed.lookahead, empty]
      rw [stop]
      exact .ok inText guarded (Nat.le_refl _)
    | succ rounds =>
      rw [Parser.operations, Parser.operator?_bind]
      cases cursor.feed.operator? operators with
      | none => exact .ok inText guarded (Nat.le_refl _)
      | some operator =>
        refine ((follows_eat .operator).discard.bind ?_).relax inText guarded short
        intro _
        refine (h.mono (Nat.sub_le _ _)).andThen ?_
        intro right
        exact ih (h.mono (Nat.sub_le _ _)) rounds (by omega) (by omega) _

theorem follows_chain (h : Follows text bound 1 operand operand') (rounds limit : Nat)
    (within : bound ≤ rounds + 2) (enough : bound ≤ limit + 1) :
    Follows text bound 1 (Parser.chain rounds operators operand)
      (chain limit operators operand') := by
  refine h.bind ?_
  intro left
  exact follows_operations (h.mono (Nat.sub_le _ _)) _ _ (by omega) (by omega) left

end

theorem follows_sums {inner : Parser Expression} {inner' : PlaceReader Expression}
    (h : Follows text bound 1 inner inner') (rounds limit : Nat) (within : bound ≤ rounds + 1)
    (enough : bound ≤ limit) :
    Follows text (bound + 1) 1
      (Parser.chain rounds [.add, .sub] (Parser.chain rounds [.mul, .div] (Parser.factor inner)))
      (chain limit [.add, .sub] (chain limit [.mul, .div] (factor inner'))) := by
  have products : Follows text (bound + 1) 1
      (Parser.chain rounds [.mul, .div] (Parser.factor inner))
      (chain limit [.mul, .div] (factor inner')) :=
    follows_chain (follows_factor h) rounds limit (by omega) (by omega)
  exact follows_chain products rounds limit (by omega) (by omega)

theorem follows_expression {bound limit : Nat} (enough : bound < limit) :
    Follows text (bound + 1) 1 (Parser.expression bound) (expression limit) := by
  obtain ⟨limit, rfl⟩ := Nat.exists_eq_add_one_of_ne_zero (Nat.ne_zero_of_lt enough)
  induction bound generalizing limit with
  | zero =>
    -- Nothing is left to read, so that the bound plays no role.
    intro cursor inText guarded short
    have empty : cursor.feed.lexemes = [] := List.length_eq_zero_iff.mp (by omega)
    have none : Follows text 0 1 (Parser.expression 0) (expression limit) := by
      intro cursor inText guarded short
      omega
    rw [FeedRelation.Lawful.expression_of_empty empty 0,
      ← FeedRelation.Lawful.expression_of_empty empty 1]
    exact follows_sums none 0 limit (Nat.zero_le _) (Nat.zero_le _) inText guarded short
  | succ bound ih =>
    obtain ⟨limit, rfl⟩ := Nat.exists_eq_add_one_of_ne_zero (show limit ≠ 0 by omega)
    exact follows_sums (ih limit (by omega)) bound _ (Nat.le_refl _) (by omega)

/-! ### Statements -/

theorem follows_variableDeclaration {bound limit : Nat} (enough : bound < limit) :
    Follows text (bound + 2) 1 (Parser.variableDeclaration bound)
      (variableDeclaration limit) := by
  refine (follows_eat .varKeyword).discard.bind ?_
  intro _
  refine (follows_eat .identifier).andThen ?_
  intro name
  refine (follows_eat .colon).discard.andThen ?_
  intro _
  refine (follows_eat .typeKeyword).andThen ?_
  intro typeName
  refine (follows_eat .assign).discard.andThen ?_
  intro _
  refine (follows_expression enough).andThen ?_
  intro value
  refine (follows_eat .semicolon).discard.andThen ?_
  intro _
  exact follows_pure _

theorem follows_returnStatement {bound limit : Nat} (enough : bound < limit) :
    Follows text (bound + 2) 1 (Parser.returnStatement bound) (returnStatement limit) := by
  refine (follows_eat .returnKeyword).discard.bind ?_
  intro _
  apply follows_check
  intro found
  cases found with
  | true =>
    refine (follows_eat .semicolon).discard.andThen ?_
    intro _
    exact follows_pure _
  | false =>
    refine (follows_expression enough).andThen ?_
    intro argument
    refine (follows_eat .semicolon).discard.andThen ?_
    intro _
    exact follows_pure _

theorem follows_parameter : Follows text bound 1 Parser.parameter parameter := by
  refine (follows_eat .identifier).bind ?_
  intro name
  refine (follows_eat .colon).discard.andThen ?_
  intro _
  refine (follows_eat .typeKeyword).andThen ?_
  intro typeName
  exact follows_pure _

theorem follows_moreParameters (rounds limit : Nat) (within : bound ≤ rounds + 1)
    (enough : bound ≤ limit) :
    Follows text bound 0 (Parser.moreParameters rounds) (moreParameters limit) := by
  induction limit generalizing bound rounds with
  | zero =>
    intro cursor inText guarded short
    omega
  | succ limit ih =>
    cases rounds with
    | zero =>
      intro cursor inText guarded short
      have empty : cursor.feed.lexemes = [] := List.length_eq_zero_iff.mp (by omega)
      have stop : (cursor.feed.lexemes.head?.map Lexeme.token).any (·.kind = .comma) = false := by
        rw [empty]
        rfl
      rw [moreParameters, check_bind, stop]
      exact .ok inText guarded (Nat.le_refl _)
    | succ rounds =>
      apply follows_check
      intro found
      cases found with
      | false => exact follows_pure _
      | true =>
        refine ((follows_eat .comma).discard.bind ?_).relax
        intro _
        refine follows_parameter.andThen ?_
        intro first
        refine (ih rounds (by omega) (by omega)).andThen ?_
        intro more
        exact follows_pure _

theorem follows_parameters {bound limit : Nat} (enough : bound < limit) :
    Follows text (bound + 1) 1 (Parser.parameters bound) (parameters limit) := by
  refine (follows_eat .lParen).discard.bind ?_
  intro _
  apply follows_check
  intro found
  cases found with
  | true =>
    refine (follows_eat .rParen).discard.andThen ?_
    intro _
    exact follows_pure _
  | false =>
    refine follows_parameter.andThen ?_
    intro first
    refine (follows_moreParameters bound limit (by omega) (by omega)).andThen ?_
    intro more
    refine (follows_eat .rParen).discard.andThen ?_
    intro _
    exact follows_pure _

section

variable {reader : Parser Statement} {reader' : PlaceReader Statement}

theorem follows_statementsToBrace (h : Follows text bound 1 reader reader') (owner : String)
    (rounds limit : Nat) (within : bound ≤ rounds) (enough : bound ≤ limit) :
    Follows text bound 0 (Parser.statementsToBrace owner reader rounds)
      (statementsToBrace owner reader' limit) := by
  induction rounds generalizing bound limit with
  | zero =>
    intro cursor inText guarded short
    omega
  | succ rounds ih =>
    cases limit with
    | zero =>
      intro cursor inText guarded short
      omega
    | succ limit =>
      apply follows_peek
      intro ahead
      cases ahead with
      | none => exact follows_unexpected _
      | some token =>
        by_cases closes : token.kind = .rBrace
        · simp only [if_pos closes]
          exact follows_pure _
        · simp only [if_neg closes]
          refine (h.bind ?_).relax
          intro first
          refine (ih (h.mono (Nat.sub_le _ _)) limit (by omega) (by omega)).andThen ?_
          intro others
          exact follows_pure _

theorem follows_statementsToEnd (h : Follows text bound 1 reader reader') (rounds limit : Nat)
    (within : bound ≤ rounds) (enough : bound ≤ limit) :
    Follows text bound 0 (Parser.statementsToEnd reader rounds)
      (statementsToEnd reader' limit) := by
  induction rounds generalizing bound limit with
  | zero =>
    intro cursor inText guarded short
    omega
  | succ rounds ih =>
    cases limit with
    | zero =>
      intro cursor inText guarded short
      omega
    | succ limit =>
      apply follows_peek
      intro ahead
      cases ahead with
      | none => exact follows_pure _
      | some token =>
        refine (h.bind ?_).relax
        intro first
        refine (ih (h.mono (Nat.sub_le _ _)) limit (by omega) (by omega)).andThen ?_
        intro others
        exact follows_pure _

theorem follows_block {bound limit : Nat} (enough : bound < limit)
    (h : Follows text (bound + 1) 1 reader reader') (owner : String) :
    Follows text (bound + 1) 1 (Parser.block bound owner reader) (block limit owner reader') := by
  refine (follows_eat .lBrace).discard.bind ?_
  intro _
  refine (follows_statementsToBrace (h.mono (Nat.sub_le _ _)) owner bound limit (by omega)
    (by omega)).andThen ?_
  intro body
  refine (follows_eat .rBrace).discard.andThen ?_
  intro _
  exact follows_pure body

theorem follows_functionDeclaration {bound limit : Nat} (enough : bound < limit)
    (h : Follows text (bound + 1) 1 reader reader') :
    Follows text (bound + 2) 1 (Parser.functionDeclaration bound reader)
      (functionDeclaration limit reader') := by
  refine (follows_eat .functionKeyword).discard.bind ?_
  intro _
  refine (follows_eat .identifier).andThen ?_
  intro name
  refine (follows_parameters enough).andThen ?_
  intro parameters
  refine (follows_eat .colon).discard.andThen ?_
  intro _
  refine (follows_eat .typeKeyword).andThen ?_
  intro returnType
  refine (follows_block enough h name.text).andThen ?_
  intro body
  exact follows_pure _

end

theorem follows_statement {bound limit : Nat} (enough : bound < limit) :
    Follows text (bound + 1) 1 (Parser.statement bound) (statement limit) := by
  induction bound generalizing limit with
  | zero =>
    obtain ⟨limit, rfl⟩ := Nat.exists_eq_add_one_of_ne_zero (Nat.ne_zero_of_lt enough)
    intro cursor inText guarded short
    have empty : cursor.feed.lexemes = [] := List.length_eq_zero_iff.mp (by omega)
    have refused : statement (limit + 1) (.ahead text cursor) =
        unexpected .statement (.ahead text cursor) := by
      rw [statement, peek_bind, empty]
      rfl
    rw [refused]
    exact follows_unexpected .statement inText guarded short
  | succ bound ih =>
    obtain ⟨limit, rfl⟩ := Nat.exists_eq_add_one_of_ne_zero (Nat.ne_zero_of_lt enough)
    have enough := Nat.lt_of_succ_lt_succ enough
    apply follows_peek
    intro ahead
    generalize ahead.map Token.kind = kind
    cases kind with
    | none => exact follows_unexpected .statement
    | some kind =>
      cases kind with
      | varKeyword => exact follows_variableDeclaration enough
      | functionKeyword => exact follows_functionDeclaration enough (ih enough)
      | returnKeyword => exact follows_returnStatement enough
      | _ => exact follows_unexpected .statement

/-- A token takes at least one character. -/
theorem lexemes_length_le (cursor : Cursor) :
    cursor.feed.lexemes.length ≤ cursor.rest.length := by
  induction length : cursor.rest.length using Nat.strong_induction_on generalizing cursor with
  | _ count ih =>
    cases next : cursor.next with
    | finish behind =>
      rw [Cursor.feed_of_finish next]
      exact Nat.zero_le _
    | fault error behind =>
      rw [Cursor.feed_of_fault next]
      exact Nat.zero_le _
    | token token behind =>
      have shorter := Cursor.next_rest_length_lt next
      have more := ih _ (length ▸ shorter) behind rfl
      rw [Cursor.feed_of_next next, List.length_cons]
      omega

/-- The statements up to the end of the input are a program. -/
theorem inStep_program (inText : cursor.IsIn text) (guarded : cursor.feed.Guarded) {limit : Nat}
    (enough : cursor.feed.lexemes.length + 1 < limit) :
    InStep text 0 cursor.feed.lexemes.length (Parser.program cursor.feed)
      ((do return ⟨← statementsToEnd (statement limit) limit⟩ : PlaceReader Program)
        (.ahead text cursor)) := by
  have statements : Follows text (cursor.feed.lexemes.length + 1) 1
      (Parser.statement (cursor.feed.lexemes.length + 1)) (statement limit) :=
    (follows_statement enough).mono (Nat.le_succ _)
  have programs := (follows_statementsToEnd statements _ limit (Nat.le_refl _)
    (Nat.le_of_lt enough)).andThen fun body => follows_pure (Program.mk body)
  exact programs inText guarded (Nat.lt_succ_self _)

theorem lexemes_length_lt_rounds (inText : cursor.IsIn text) :
    cursor.feed.lexemes.length + 1 < (OpenReading.ahead text cursor).place.rounds := by
  have tokens := lexemes_length_le cursor
  have size := inText.offset_add
  rw [OpenReading.ahead, ArrayCursor.rounds, List.size_toArray]
  omega

/-- Reading in place from a cursor gives what reading from it gives, and leaves the same place. -/
theorem program_eq (inText : cursor.IsIn text) (lookahead : Option Token) :
    ∃ last, program ⟨⟨text.toArray, cursor.position⟩, lookahead⟩ =
      some (cursor.parse.1, ⟨⟨text.toArray, cursor.parse.2.position⟩, last⟩) := by
  unfold Cursor.parse
  rcases Cursor.guard_feed cursor with ⟨guard, guarded⟩ | ⟨error, behind, fault, guard⟩
  · have outcome := inStep_program inText guarded (lexemes_length_lt_rounds inText)
    have goesOn : (Except.ok cursor.feed >>= Parser.program) = Parser.program cursor.feed := rfl
    rw [guard, goesOn, program, Refusable.bind_of_ok _ (pull_of_guarded inText guarded lookahead),
      Refusable.bind_get]
    rcases outcome.answers with ⟨value, behind, read, readInPlace⟩ |
      ⟨failure, last, refused, refusedInPlace⟩
    · refine ⟨behind.next.token?, readInPlace.trans ?_⟩
      rw [read]
      simp only [Cursor.resume_feed]
      rfl
    · refine ⟨last, refusedInPlace.trans ?_⟩
      rw [refused]
  · rw [guard, program, Refusable.bind_of_error _ (pull_of_fault inText fault lookahead)]
    exact ⟨lookahead, rfl⟩

end PlaceReader

end TinyScript
