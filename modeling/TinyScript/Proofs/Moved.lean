import TinyScript.Proofs.MaximalMunch
import TinyScript.Proofs.Simulation

/-!
# Moved positions

Positions are carried along and never looked at. If all positions of a reading are moved, its result
is the same, with moved positions in what it reports.
-/

namespace TinyScript

variable (move : Position → Position)

/-- A token at a moved position. -/
def Token.moved (token : Token) : Token :=
  { token with start := move token.start }

/-- A cursor at a moved position, in front of the same characters. -/
def Cursor.moved (cursor : Cursor) : Cursor :=
  { cursor with position := move cursor.position }

/-- A token and the cursor behind it, both moved. -/
def Lexeme.moved (lexeme : Lexeme) : Lexeme :=
  ⟨lexeme.token.moved move, lexeme.behind.moved move⟩

/-- An error in the characters at a moved position. -/
def LexicalError.moved : LexicalError → LexicalError
  | strayCharacter char position => .strayCharacter char (move position)
  | openString quote position => .openString quote (move position)

/-- An error in the tokens at a moved position, and so the token that was found there. -/
def GrammarError.moved : GrammarError → GrammarError
  | unexpected expected found position =>
    .unexpected expected (found.map (Token.moved move)) (move position)
  | numberTooLarge text position => .numberTooLarge text (move position)

/-- An error in a text at a moved position. -/
def ParseError.moved : ParseError → ParseError
  | lexical error => .lexical (error.moved move)
  | grammatical error => .grammatical (error.moved move)

/-- The end of a feed at a moved position. -/
def Ending.moved : Ending → Ending
  | finish cursor => .finish (cursor.moved move)
  | fault error cursor => .fault (error.moved move) (cursor.moved move)

/-- A feed whose tokens and end are moved. -/
def Feed.moved (feed : Feed) : Feed :=
  ⟨feed.lexemes.map (Lexeme.moved move), feed.ending.moved move⟩

/-- A failure at a moved position, to be resumed at a moved one. -/
def Failure.moved (failure : Failure) : Failure :=
  ⟨failure.error.moved move, failure.resume.moved move⟩

theorem ParseError.report_moved_kind (error : ParseError) :
    (error.moved move).report.kind = error.report.kind := by
  cases error with
  | lexical error => cases error <;> rfl
  | grammatical error => cases error <;> rfl

theorem ParseError.report_moved_position (error : ParseError) :
    (error.moved move).report.position = move error.report.position := by
  cases error with
  | lexical error => cases error <;> rfl
  | grammatical error => cases error <;> rfl

@[simp]
theorem Ending.cursor_moved (ending : Ending) :
    (ending.moved move).cursor = ending.cursor.moved move := by
  cases ending <;> rfl

theorem Feed.resume_moved (feed : Feed) : (feed.moved move).resume = feed.resume.moved move := by
  obtain ⟨lexemes, ending⟩ := feed
  cases lexemes with
  | nil => exact Ending.cursor_moved move ending
  | cons lexeme rest => rfl

theorem Feed.guard_moved (feed : Feed) :
    (feed.moved move).guard =
      (feed.guard.map (Feed.moved move)).mapError (Failure.moved move) := by
  obtain ⟨lexemes, ending⟩ := feed
  cases lexemes with
  | nil => cases ending <;> rfl
  | cons lexeme rest => rfl

theorem Feed.unexpected_moved (feed : Feed) (expected : Expected) :
    (feed.moved move).unexpected expected = (feed.unexpected expected).moved move := by
  rw [Feed.unexpected, Feed.unexpected, Feed.resume_moved]
  obtain ⟨lexemes, ending⟩ := feed
  cases lexemes with
  | nil => simp [Failure.moved, ParseError.moved, GrammarError.moved, Feed.moved, Cursor.moved]
  | cons lexeme rest => rfl

/-! ## Scanning -/

/-- The place that a cursor is moved to lies before a text as the cursor does. -/
def Cursor.MovesAlong (cursor : Cursor) : Prop :=
  ∀ text, (move cursor.position).after text = move (cursor.position.after text)

variable {move}

theorem Cursor.next_moved {cursor : Cursor} (along : cursor.MovesAlong move) :
    (cursor.moved move).next = match cursor.next with
      | .finish behind => .finish (behind.moved move)
      | .fault error behind => .fault (error.moved move) (behind.moved move)
      | .token token behind => .token (token.moved move) (behind.moved move) := by
  obtain ⟨text, position⟩ := cursor
  obtain ⟨gap, rest, rfl, skipped, free⟩ := exists_gap text
  have here : (move position).after gap = move (position.after gap) := along gap
  have further (count : Nat) : (move (position.after gap)).after (rest.take count) =
      move ((position.after gap).after (rest.take count)) := by
    rw [← here, ← Position.after_append, along, Position.after_append]
  simp only [Cursor.next, Cursor.moved, Cursor.skipGap_gap skipped free, here]
  cases Front.ofText rest with
  | nothing => rfl
  | token kind length => simp [Cursor.pass, further, Token.moved]
  | openString quote =>
    have atEnd := further rest.length
    rw [List.take_length] at atEnd
    simp [Cursor.pass, atEnd, LexicalError.moved]
  | stray char => rfl

/-- Behind a token a cursor still moves along. -/
theorem Cursor.MovesAlong.of_next {cursor behind : Cursor} {token : Token}
    (along : cursor.MovesAlong move) (next : cursor.next = .token token behind) :
    behind.MovesAlong move := by
  obtain ⟨text, position⟩ := cursor
  obtain ⟨gap, rest, rfl, skipped, free⟩ := exists_gap text
  intro more
  simp only [Cursor.next, Cursor.skipGap_gap skipped free] at next
  split at next <;> cases next
  rename_i length found
  have here : (move position).after (gap ++ rest.take length) =
      move (position.after (gap ++ rest.take length)) := along _
  have further : (move position).after (gap ++ rest.take length ++ more) =
      move (position.after (gap ++ rest.take length ++ more)) := along _
  simp only [Cursor.pass, ← Position.after_append, ← here, further]

theorem Cursor.feed_moved {cursor : Cursor} (along : cursor.MovesAlong move) :
    (cursor.moved move).feed = cursor.feed.moved move := by
  induction length : cursor.rest.length using Nat.strong_induction_on generalizing cursor with
  | _ count ih =>
    have moved := Cursor.next_moved along
    cases next : cursor.next with
    | finish behind =>
      rw [next] at moved
      rw [Cursor.feed_of_finish next, Cursor.feed_of_finish moved]
      rfl
    | fault error behind =>
      rw [next] at moved
      rw [Cursor.feed_of_fault next, Cursor.feed_of_fault moved]
      rfl
    | token token behind =>
      rw [next] at moved
      have shorter := Cursor.next_rest_length_lt next
      rw [Cursor.feed_of_next next, Cursor.feed_of_next moved,
        ih _ (length ▸ shorter) (along.of_next next) rfl]
      rfl

/-! ## Reading -/

variable (move) in
/-- Feeds, tokens and failures that differ by moved positions. -/
def FeedRelation.moved : FeedRelation where
  Feeds feed feed' := feed' = feed.moved move
  Tokens token token' := token' = token.moved move
  Failures failure failure' := failure' = failure.moved move
  Stops _ := False

theorem FeedRelation.moved_lawful : (FeedRelation.moved move).Lawful where
  lookahead := by
    rintro ⟨lexemes, ending⟩ _ rfl
    cases lexemes <;> rfl
  symbol := by
    rintro token _ rfl
    rfl
  eat := by
    rintro ⟨lexemes, ending⟩ _ kind rfl
    have failed := Feed.unexpected_moved move ⟨lexemes, ending⟩ (.token kind)
    cases lexemes with
    | nil => exact .error failed
    | cons lexeme rest =>
      have same : (lexeme.moved move).token.kind = lexeme.token.kind := rfl
      by_cases fits : lexeme.token.kind = kind
      · have guarded := Feed.guard_moved move ⟨rest, ending⟩
        simp only [Parser.eat, Feed.moved, List.map_cons, same, if_pos fits] at guarded ⊢
        rw [guarded]
        cases left : Feed.guard ⟨rest, ending⟩ with
        | error failure => exact .error rfl
        | ok feed =>
          obtain ⟨rfl, -⟩ := Feed.guard_eq_ok_iff.mp left
          exact .ok rfl rfl (by simp) (by simp [Feed.moved])
      · simp only [Parser.eat, Feed.moved, List.map_cons, same, if_neg fits]
        exact .error failed
  unexpected := by
    rintro feed _ expected rfl
    exact Feed.unexpected_moved move feed expected
  tooLarge := by
    rintro token _ feed _ rfl rfl
    rw [Feed.resume_moved]
    rfl

/-- Reading from a moved cursor gives the same program, or the same error at a moved place, and goes
    on from a moved cursor. -/
theorem Cursor.parse_moved {cursor : Cursor} (along : cursor.MovesAlong move) :
    (cursor.moved move).parse =
      (cursor.parse.1.mapError (ParseError.moved move), cursor.parse.2.moved move) := by
  rw [Cursor.parse, Cursor.parse, Cursor.feed_moved along, Feed.guard_moved]
  cases guarded : cursor.feed.guard with
  | error failure => rfl
  | ok feed =>
    have outcome := FeedRelation.moved_lawful.outcomes_program
      (show (FeedRelation.moved move).Feeds feed (feed.moved move) from rfl)
    have left : (Except.ok feed >>= Parser.program) = Parser.program feed := rfl
    have right : (((Except.ok feed).map (Feed.moved move)).mapError (Failure.moved move) >>=
        Parser.program) = Parser.program (feed.moved move) := rfl
    rw [left, right]
    generalize Parser.program feed = result, Parser.program (feed.moved move) = result' at outcome
    cases outcome with
    | ok same related less less' =>
      subst same
      subst related
      simp [Except.mapError, Feed.resume_moved]
    | error related =>
      subst related
      rfl
    | stopped h => exact absurd h id

end TinyScript
