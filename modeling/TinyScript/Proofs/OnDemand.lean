import TinyScript.Proofs.CorrectPrefix

/-!
# Reading on demand

A reader asks for one token at a time and never looks further than its lookahead. Every reading
ends at a cursor that is reached token by token: it leaves the cursor behind the lookahead there,
and an error names that lookahead or a number before it. Scanning the whole text first and reading
on demand therefore agree on errors: a place where no token starts is reported by both, or the
reader refuses a token before it.
-/

namespace TinyScript

/-- The cursor behind a step. -/
def Step.cursor : Step → Cursor
  | finish cursor => cursor
  | fault _ cursor => cursor
  | token _ cursor => cursor

namespace Cursor

/-- The cursors that are reached from one token by token. -/
inductive Reaches (origin : Cursor) : Cursor → Prop
  | here : Reaches origin origin
  | token {cursor behind : Cursor} {token : Token} (reached : Reaches origin cursor)
      (next : cursor.next = .token token behind) : Reaches origin behind

/-- How a reading from a cursor may end, and where: at a lookahead that follows a cursor it has
    reached. The cursor that it leaves stands behind that lookahead. -/
inductive ReadingEnds (origin : Cursor) : Except ParseError Program → Cursor → Prop
  | program {cursor behind : Cursor} {program : Program} (reached : origin.Reaches cursor)
      (next : cursor.next = .finish behind) : ReadingEnds origin (.ok program) behind
  | fault {cursor behind : Cursor} {error : LexicalError} (reached : origin.Reaches cursor)
      (next : cursor.next = .fault error behind) :
      ReadingEnds origin (.error (.lexical error)) behind
  | atToken {cursor behind : Cursor} {token : Token} {expected : Expected}
      (reached : origin.Reaches cursor) (next : cursor.next = .token token behind) :
      ReadingEnds origin
        (.error (.grammatical (.unexpected expected (some token) token.start))) behind
  | atEnd {cursor behind : Cursor} {expected : Expected} (reached : origin.Reaches cursor)
      (next : cursor.next = .finish behind) :
      ReadingEnds origin
        (.error (.grammatical (.unexpected expected none behind.position))) behind
  | tooLarge {before between cursor : Cursor} {number : Token}
      (numberReached : origin.Reaches before) (numberNext : before.next = .token number between)
      (reached : origin.Reaches cursor) :
      ReadingEnds origin (.error (.grammatical (.numberTooLarge number.text number.start)))
        cursor.next.cursor

/-! ## The feed as a view of the text -/

variable {origin cursor behind : Cursor} {token : Token} {error : LexicalError}

/-- The cursor behind the lookahead of a feed is the one behind the next step. -/
theorem resume_feed (cursor : Cursor) : cursor.feed.resume = cursor.next.cursor := by
  cases next : cursor.next with
  | finish behind =>
    rw [feed_of_finish next]
    rfl
  | fault error behind =>
    rw [feed_of_fault next]
    rfl
  | token token behind =>
    rw [feed_of_next next]
    rfl

/-- A feed is refused exactly where the next step is a fault. -/
theorem guard_feed (cursor : Cursor) :
    (cursor.feed.guard = .ok cursor.feed ∧ cursor.feed.Guarded) ∨
      ∃ error behind, cursor.next = .fault error behind ∧
        cursor.feed.guard = .error ⟨.lexical error, behind⟩ := by
  cases next : cursor.next with
  | fault error behind =>
    refine .inr ⟨error, behind, rfl, ?_⟩
    rw [feed_of_fault next]
    rfl
  | finish behind =>
    have guarded : cursor.feed.Guarded := by
      rw [feed_of_finish next]
      exact fun _ => ⟨behind, rfl⟩
    exact .inl ⟨Feed.guard_eq_ok_iff.mpr ⟨rfl, guarded⟩, guarded⟩
  | token token behind =>
    have guarded : cursor.feed.Guarded := by
      rw [feed_of_next next]
      exact fun empty => absurd empty (List.cons_ne_nil _ _)
    exact .inl ⟨Feed.guard_eq_ok_iff.mpr ⟨rfl, guarded⟩, guarded⟩

theorem next_ne_fault (guarded : cursor.feed.Guarded) : cursor.next ≠ .fault error behind := by
  intro next
  rw [feed_of_fault next] at guarded
  obtain ⟨_, finish⟩ := guarded rfl
  cases finish

/-- A reading that does not find what it expects ends at its lookahead. -/
theorem Reaches.unexpected (reached : origin.Reaches cursor) (guarded : cursor.feed.Guarded)
    (expected : Expected) :
    origin.ReadingEnds (.error (cursor.feed.unexpected expected).error)
      (cursor.feed.unexpected expected).resume := by
  cases next : cursor.next with
  | fault error behind => exact absurd next (next_ne_fault guarded)
  | finish behind =>
    rw [feed_of_finish next]
    exact .atEnd reached next
  | token token behind =>
    rw [feed_of_next next]
    exact .atToken reached next

/-! ## Reading -/

/-- Readings of a feed from a cursor that is reached token by token. -/
def onDemand (origin : Cursor) : FeedRelation where
  Feeds feed feed' := feed = feed' ∧ feed.Guarded ∧
    ∃ cursor, origin.Reaches cursor ∧ feed = cursor.feed
  Tokens token token' := token = token' ∧
    ∃ before behind, origin.Reaches before ∧ before.next = .token token behind
  Failures failure _ := origin.ReadingEnds (.error failure.error) failure.resume
  Stops _ := False

theorem onDemand_lawful (origin : Cursor) : origin.onDemand.Lawful where
  lookahead := by
    rintro feed _ ⟨rfl, -⟩
    rfl
  symbol := by
    rintro token _ ⟨rfl, -⟩
    rfl
  eat := by
    rintro _ _ kind ⟨rfl, guarded, cursor, reached, rfl⟩
    have refused := reached.unexpected guarded (.token kind)
    cases next : cursor.next with
    | fault error behind => exact absurd next (next_ne_fault guarded)
    | finish behind =>
      rw [feed_of_finish next] at refused ⊢
      exact .error refused
    | token token behind =>
      have further : origin.Reaches behind := .token reached next
      rw [feed_of_next next] at refused ⊢
      by_cases fits : token.kind = kind
      · simp only [Parser.eat, if_pos fits]
        -- Only now is the token behind the eaten one looked for.
        rcases guard_feed behind with ⟨guard, guarded⟩ | ⟨error, last, fault, guard⟩
        · rw [guard]
          exact .ok ⟨rfl, cursor, behind, reached, next⟩ ⟨rfl, guarded, behind, further, rfl⟩
            (Nat.le_refl _) (Nat.le_refl _)
        · rw [guard]
          exact .error (.fault further fault)
      · simp only [Parser.eat, if_neg fits]
        exact .error refused
  unexpected := by
    rintro _ _ expected ⟨rfl, guarded, cursor, reached, rfl⟩
    exact reached.unexpected guarded expected
  tooLarge := by
    rintro token _ _ _ ⟨rfl, before, between, numberReached, numberNext⟩
      ⟨rfl, -, cursor, reached, rfl⟩
    rw [resume_feed]
    exact .tooLarge numberReached numberNext reached

/-- Every reading ends on demand. -/
theorem readingEnds_parse (cursor : Cursor) :
    cursor.ReadingEnds cursor.parse.1 cursor.parse.2 := by
  unfold Cursor.parse
  rcases guard_feed cursor with ⟨guard, guarded⟩ | ⟨error, behind, fault, guard⟩
  · have outcome := (onDemand_lawful cursor).outcomes_program
      (show cursor.onDemand.Feeds cursor.feed cursor.feed from
        ⟨rfl, guarded, cursor, .here, rfl⟩)
    have goesOn : (Except.ok cursor.feed >>= Parser.program) = Parser.program cursor.feed := rfl
    rw [guard, goesOn]
    cases read : Parser.program cursor.feed with
    | error failure =>
      rw [read] at outcome
      cases outcome with
      | error ends => exact ends
      | stopped h => exact absurd h id
    | ok answer =>
      obtain ⟨program, feed⟩ := answer
      obtain ⟨-, -, -, empty⟩ := program_eq_ok_iff.mp read
      rw [read] at outcome
      cases outcome with
      | ok same related less less' =>
        obtain ⟨-, guarded, last, reached, rfl⟩ := related
        cases next : last.next with
        | finish behind =>
          have resume : last.feed.resume = behind := by
            rw [resume_feed, next]
            rfl
          subst resume
          exact .program reached next
        | fault error behind => exact absurd next (next_ne_fault guarded)
        | token token behind =>
          rw [feed_of_next next] at empty
          cases empty
  · rw [guard]
    exact .fault .here fault

/-! ## Errors of scanning and of reading -/

/-- All cursors that are reached see the same end of the tokens. -/
theorem Reaches.ending (reached : origin.Reaches cursor) :
    cursor.feed.ending = origin.feed.ending := by
  induction reached with
  | here => rfl
  | token reached next ih => rw [← ih, feed_of_next next]

theorem Reaches.isIn {text : List Char} (reached : origin.Reaches cursor)
    (inText : origin.IsIn text) : cursor.IsIn text := by
  induction reached with
  | here => exact inText
  | token reached next ih =>
    have step := ih.next
    rw [next] at step
    exact step.1

/-- The fault that ends the tokens does not stand before the cursor. -/
theorem IsIn.offset_le_fault {text : List Char} (inText : cursor.IsIn text)
    (fault : cursor.feed.ending = .fault error behind) :
    cursor.position.offset ≤ error.report.position.offset := by
  induction length : cursor.rest.length using Nat.strong_induction_on generalizing cursor with
  | _ count ih =>
    cases next : cursor.next with
    | finish last =>
      rw [feed_of_finish next] at fault
      cases fault
    | fault found last =>
      rw [feed_of_fault next] at fault
      cases fault
      have here := inText.offset_add
      have start := inText.skipGap.offset_add
      have skipped := behindGap_rest_length_le .blanks cursor.rest cursor.position
      rw [← Cursor.skipGap] at skipped
      have place : error.report.position = cursor.skipGap.position := by
        simp only [Cursor.next] at next
        split at next <;> cases next <;> rfl
      rw [place]
      omega
    | token token last =>
      have shorter := next_rest_length_lt next
      have further : last.IsIn text := (Reaches.token .here next).isIn inText
      obtain ⟨low, high⟩ := inText.next_offsets next
      rw [feed_of_next next] at fault
      have later := ih _ (length ▸ shorter) further fault rfl
      omega

/-- A token that is reached stands before the fault that ends the tokens. -/
theorem Reaches.offset_lt_fault {text : List Char} (inText : origin.IsIn text)
    (reached : origin.Reaches cursor) (next : cursor.next = .token token behind)
    {last : Cursor} (fault : origin.feed.ending = .fault error last) :
    token.start.offset < error.report.position.offset := by
  obtain ⟨-, high⟩ := (reached.isIn inText).next_offsets next
  have further : origin.Reaches behind := .token reached next
  have later := (further.isIn inText).offset_le_fault (further.ending.trans fault)
  omega

end Cursor

theorem tokenize_eq_error_iff {source : String} {error : LexicalError} :
    tokenize source = .error error ↔
      ∃ behind, (Cursor.ofText source).feed.ending = .fault error behind := by
  rw [tokenize, Feed.tokens]
  cases (Cursor.ofText source).feed.ending <;> simp

/-- Reading on demand and scanning the whole text agree on errors. A fault that the reader meets is
    the one that ends the tokens; and if the tokens end in a fault, the reader meets it, or it
    refuses a token that starts before it. -/
theorem Program.parse_agrees_with_tokenize (source : String) :
    (∀ error, Program.parse source = .error (.lexical error) → tokenize source = .error error) ∧
    (∀ error, tokenize source = .error error →
      Program.parse source = .error (.lexical error) ∨
        ∃ refusal : GrammarError, Program.parse source = .error (.grammatical refusal) ∧
          refusal.report.kind = .grammatical ∧
          refusal.report.position.offset < error.report.position.offset) := by
  have inText := Cursor.IsIn.ofText source
  have ends := (Cursor.ofText source).readingEnds_parse
  rw [← Program.parse] at ends
  generalize Program.parse source = answer at ends
  generalize (Cursor.ofText source).parse.2 = behind at ends
  refine ⟨?_, ?_⟩
  · rintro error rfl
    cases ends with
    | fault reached next =>
      refine tokenize_eq_error_iff.mpr ⟨behind, ?_⟩
      rw [← reached.ending, Cursor.feed_of_fault next]
  · intro error failed
    obtain ⟨last, fault⟩ := tokenize_eq_error_iff.mp failed
    -- The end of the text is never reached, since a fault comes first.
    have unfinished {cursor behind : Cursor} (reached : (Cursor.ofText source).Reaches cursor) :
        cursor.next ≠ .finish behind := by
      intro next
      have ending := reached.ending.trans fault
      rw [Cursor.feed_of_finish next] at ending
      cases ending
    cases ends with
    | program reached next => exact absurd next (unfinished reached)
    | atEnd reached next => exact absurd next (unfinished reached)
    | fault reached next =>
      have ending := reached.ending.trans fault
      rw [Cursor.feed_of_fault next] at ending
      cases ending
      exact .inl rfl
    | atToken reached next =>
      exact .inr ⟨_, rfl, rfl, reached.offset_lt_fault inText next fault⟩
    | tooLarge numberReached numberNext reached =>
      exact .inr ⟨_, rfl, rfl, numberReached.offset_lt_fault inText numberNext fault⟩

/-- An open string that the reader meets, and a character without a use behind a token that it
    refuses. -/
theorem Program.parse_agrees_with_tokenize_faults :
    (Program.parse "return a + \"b" = .error (.lexical (.openString '"' ⟨11, 1, 12⟩)) ∧
      tokenize "return a + \"b" = .error (.openString '"' ⟨11, 1, 12⟩)) ∧
    (tokenize "return a\n+ ; @" = .error (.strayCharacter '@' ⟨13, 2, 5⟩) ∧
      ∃ refusal : GrammarError, Program.parse "return a\n+ ; @" = .error (.grammatical refusal) ∧
        refusal.report.position.offset < 13) := by
  have met : Program.parse "return a + \"b" =
      .error (.lexical (.openString '"' ⟨11, 1, 12⟩)) := by
    cbv
  have ended : tokenize "return a\n+ ; @" = .error (.strayCharacter '@' ⟨13, 2, 5⟩) := by
    cbv
  refine ⟨⟨met, (Program.parse_agrees_with_tokenize _).1 _ met⟩, ended, ?_⟩
  rcases (Program.parse_agrees_with_tokenize _).2 _ ended with lexical | ⟨refusal, read, -, before⟩
  · have refused : Program.parse "return a\n+ ; @" = .error (.grammatical
        (.unexpected .operand (some ⟨.semicolon, ";", ⟨11, 2, 3⟩⟩) ⟨11, 2, 3⟩)) := by
      cbv
    rw [refused] at lexical
    cases lexical
  · exact ⟨refusal, read, before⟩

end TinyScript
