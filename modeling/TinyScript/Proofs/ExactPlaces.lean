import TinyScript.Proofs.MaximalMunch
import TinyScript.Proofs.Simulation

/-!
# Exact places

Lines and columns are carried along while a text is scanned, and at no time do they differ from what
counting gives: the line is one more than the line feeds before the place, and the column is one
more than the characters behind the last of them. A cursor in a text is described by the characters
before it, and every step only moves characters from behind it to before it.

Places are handed on by tokens and by errors, also through the readers of programs. An error at the
end of the input stands behind the whole text.
-/

namespace TinyScript

/-- A place of a text: line and column are those that the characters before it make up. -/
structure Position.IsIn (text : List Char) (position : Position) : Prop where
  within : position.offset ≤ text.length
  line : position.line = 1 + (text.take position.offset).count '\n'
  column : position.column =
    1 + ((text.take position.offset).reverse.takeWhile (· ≠ '\n')).length

theorem Position.isIn_behind (before rest : List Char) :
    (Position.behind before).IsIn (before ++ rest) := by
  refine ⟨?_, ?_, ?_⟩
  · simp [Position.behind]
  · simp [Position.behind, Nat.add_comm]
  · simp [Position.behind, Nat.add_comm]

/-- A cursor in a text. -/
def Cursor.IsIn (text : List Char) (cursor : Cursor) : Prop :=
  ∃ before, text = before ++ cursor.rest ∧ cursor.position = .behind before

variable {text : List Char}

namespace Cursor.IsIn

variable {cursor : Cursor}

theorem ofText (source : String) : (Cursor.ofText source).IsIn source.toList :=
  ⟨[], rfl, rfl⟩

theorem position (h : cursor.IsIn text) : cursor.position.IsIn text := by
  obtain ⟨before, rfl, place⟩ := h
  rw [place]
  exact Position.isIn_behind before cursor.rest

/-- Where nothing follows, the whole text lies before. -/
theorem position_of_nil (h : cursor.IsIn text) (empty : cursor.rest = []) :
    cursor.position = .behind text := by
  obtain ⟨before, rfl, place⟩ := h
  rw [place, empty, List.append_nil]

/-- Characters are passed from the front of what follows. -/
theorem pass_append {passed rest : List Char} {position : Position}
    (h : (Cursor.mk (passed ++ rest) position).IsIn text) :
    (Cursor.mk rest (position.after passed)).IsIn text := by
  obtain ⟨before, rfl, place⟩ := h
  refine ⟨before ++ passed, by simp, ?_⟩
  rw [Position.behind_append, ← place]

theorem pass (h : cursor.IsIn text) (count : Nat) : (cursor.pass count).IsIn text := by
  obtain ⟨rest, position⟩ := cursor
  apply pass_append
  rwa [List.take_append_drop]

theorem skipGap (h : cursor.IsIn text) : cursor.skipGap.IsIn text := by
  obtain ⟨rest, position⟩ := cursor
  obtain ⟨gap, rest, rfl, skipped, free⟩ := exists_gap rest
  rw [Cursor.skipGap_gap skipped free]
  exact pass_append h

end Cursor.IsIn

/-! ## Scanning -/

/-- All places of a step are places of the text, and it finishes at the end only. -/
def Step.IsIn (text : List Char) : Step → Prop
  | finish cursor => cursor.IsIn text ∧ cursor.rest = []
  | fault error cursor => cursor.IsIn text ∧ error.report.position.IsIn text
  | token found cursor => cursor.IsIn text ∧ found.start.IsIn text

theorem Front.eq_nil_of_nothing {rest : List Char} (h : Front.ofText rest = .nothing) :
    rest = [] := by
  cases rest with
  | nil => rfl
  | cons char rest =>
    simp only [Front.ofText] at h
    split_ifs at h
    split at h <;> cases h

theorem Cursor.IsIn.next {cursor : Cursor} (h : cursor.IsIn text) : cursor.next.IsIn text := by
  have here := h.skipGap
  simp only [Cursor.next]
  cases front : Front.ofText cursor.skipGap.rest with
  | nothing => exact ⟨here, Front.eq_nil_of_nothing front⟩
  | token kind length => exact ⟨here.pass length, here.position⟩
  | openString quote => exact ⟨here.pass _, here.position⟩
  | stray char => exact ⟨here, here.position⟩

/-- All places of an ending are places of the text, and it finishes at the end only. -/
def Ending.IsIn (text : List Char) : Ending → Prop
  | finish cursor => cursor.IsIn text ∧ cursor.rest = []
  | fault error cursor => cursor.IsIn text ∧ error.report.position.IsIn text

/-- All places of a feed are places of the text. -/
structure Feed.IsIn (text : List Char) (feed : Feed) : Prop where
  lexemes : ∀ lexeme ∈ feed.lexemes, lexeme.behind.IsIn text ∧ lexeme.token.start.IsIn text
  ending : feed.ending.IsIn text

theorem Ending.IsIn.cursor {ending : Ending} (h : ending.IsIn text) : ending.cursor.IsIn text := by
  cases ending with
  | finish cursor => exact h.1
  | fault error cursor => exact h.1

theorem Cursor.IsIn.feed {cursor : Cursor} (h : cursor.IsIn text) : cursor.feed.IsIn text := by
  induction length : cursor.rest.length using Nat.strong_induction_on generalizing cursor with
  | _ count ih =>
    have step := h.next
    cases next : cursor.next with
    | finish behind =>
      rw [next] at step
      rw [Cursor.feed_of_finish next]
      exact ⟨by simp, step⟩
    | fault error behind =>
      rw [next] at step
      rw [Cursor.feed_of_fault next]
      exact ⟨by simp, step⟩
    | token token behind =>
      rw [next] at step
      have shorter := Cursor.next_rest_length_lt next
      have more := ih _ (length ▸ shorter) step.1 rfl
      rw [Cursor.feed_of_next next]
      exact ⟨List.forall_mem_cons.mpr ⟨step, more.lexemes⟩, more.ending⟩

/-! ## Scanners -/

/-- A text that is being scanned. -/
structure Scanner where
  text : String
  cursor : Cursor

/-- What can be asked of a scanner: the next token, all further tokens, or to start on a text. -/
inductive Scanner.Request where
  | next
  | tokenize
  | init (text : String)

/-- What a scanner answers to a request. -/
inductive Scanner.Answer where
  | token (answer : Except LexicalError (Option Token))
  | tokens (answer : Except LexicalError (List Token))
  | started

/-- The places that an answer names. -/
def Scanner.Answer.places : Scanner.Answer → List Position
  | token (.ok found) => found.toList.map Token.start
  | token (.error error) => [error.report.position]
  | tokens (.ok found) => found.map Token.start
  | tokens (.error error) => [error.report.position]
  | started => []

namespace Scanner

/-- The scanner at the start of a text. -/
def ofText (text : String) : Scanner :=
  ⟨text, .ofText text⟩

/-- The answer to a request, and the scanner behind it. -/
def ask (scanner : Scanner) : Request → Answer × Scanner
  | .next =>
    match scanner.cursor.next with
    | .finish cursor => (.token (.ok none), { scanner with cursor })
    | .fault error cursor => (.token (.error error), { scanner with cursor })
    | .token token cursor => (.token (.ok (some token)), { scanner with cursor })
  | .tokenize =>
    (.tokens scanner.cursor.feed.tokens,
      { scanner with cursor := scanner.cursor.feed.ending.cursor })
  | .init text => (.started, .ofText text)

/-- The answers to requests one after the other, each with the scanner behind it. -/
def session (scanner : Scanner) : List Request → List (Answer × Scanner)
  | [] => []
  | request :: requests =>
    scanner.ask request :: (scanner.ask request).2.session requests

/-- The cursor of a scanner is in its text. -/
def Exact (scanner : Scanner) : Prop :=
  scanner.cursor.IsIn scanner.text.toList

theorem exact_ofText (text : String) : (ofText text).Exact :=
  Cursor.IsIn.ofText text

/-- A request leaves the cursor in the text, and names places of the text only. -/
theorem Exact.ask {scanner : Scanner} (exact : scanner.Exact) (request : Request) :
    (scanner.ask request).2.Exact ∧
      ∀ position ∈ (scanner.ask request).1.places,
        position.IsIn (scanner.ask request).2.text.toList := by
  cases request with
  | next =>
    have step := exact.next
    unfold Scanner.ask
    cases next : scanner.cursor.next with
    | finish cursor =>
      rw [next] at step
      exact ⟨step.1, by simp [Answer.places]⟩
    | fault error cursor =>
      rw [next] at step
      exact ⟨step.1, by simpa [Answer.places] using step.2⟩
    | token token cursor =>
      rw [next] at step
      exact ⟨step.1, by simpa [Answer.places] using step.2⟩
  | tokenize =>
    have feed := exact.feed
    refine ⟨feed.ending.cursor, ?_⟩
    simp only [Scanner.ask, Feed.tokens]
    cases ending : scanner.cursor.feed.ending with
    | finish cursor =>
      simp only [Answer.places, List.map_map, List.forall_mem_map]
      intro lexeme member
      exact (feed.lexemes lexeme member).2
    | fault error cursor =>
      have last := feed.ending
      rw [ending] at last
      simpa [Answer.places] using last.2
  | init text => exact ⟨exact_ofText text, by simp [Scanner.ask, Answer.places]⟩

theorem Exact.session {scanner : Scanner} (exact : scanner.Exact) (requests : List Request) :
    ∀ step ∈ scanner.session requests, step.2.Exact ∧
      ∀ position ∈ step.1.places, position.IsIn step.2.text.toList := by
  induction requests generalizing scanner with
  | nil => simp [Scanner.session]
  | cons request requests ih =>
    have first := exact.ask request
    exact List.forall_mem_cons.mpr ⟨first, ih first.1⟩

end Scanner

/-! ## Reading -/

/-- An error names a place of the text; the end of the input is the end of the text. -/
structure ParseError.IsIn (text : List Char) (error : ParseError) : Prop where
  place : error.report.position.IsIn text
  atEnd : ∀ expected position, error = .grammatical (.unexpected expected none position) →
    position = .behind text

/-- Readings of one feed in a text. -/
def FeedRelation.inText (text : List Char) : FeedRelation where
  Feeds feed feed' := feed = feed' ∧ feed.IsIn text ∧ feed.Guarded
  Tokens token token' := token = token' ∧ token.start.IsIn text
  Failures failure _ := failure.error.IsIn text ∧ failure.resume.IsIn text
  Stops _ := False

theorem Feed.IsIn.resume {feed : Feed} (h : feed.IsIn text) : feed.resume.IsIn text := by
  unfold Feed.resume
  cases lexemes : feed.lexemes with
  | nil => exact h.ending.cursor
  | cons lexeme rest => exact (h.lexemes lexeme (by simp [lexemes])).1

theorem Feed.IsIn.unexpected {feed : Feed} (h : feed.IsIn text) (guarded : feed.Guarded)
    (expected : Expected) :
    (feed.unexpected expected).error.IsIn text ∧ (feed.unexpected expected).resume.IsIn text := by
  refine ⟨?_, h.resume⟩
  unfold Feed.unexpected
  cases lexemes : feed.lexemes with
  | nil =>
    obtain ⟨cursor, finish⟩ := guarded lexemes
    have last := h.ending
    rw [finish] at last
    rw [finish]
    refine ⟨last.1.position, ?_⟩
    intro expected position same
    cases same
    exact last.1.position_of_nil last.2
  | cons lexeme rest =>
    refine ⟨(h.lexemes lexeme (by simp [lexemes])).2, ?_⟩
    intro expected position same
    cases same

theorem FeedRelation.inText_lawful (text : List Char) : (FeedRelation.inText text).Lawful where
  lookahead := by
    rintro feed _ ⟨rfl, -⟩
    rfl
  symbol := by
    rintro token _ ⟨rfl, -⟩
    rfl
  eat := by
    rintro ⟨lexemes, ending⟩ _ kind ⟨rfl, inText, guarded⟩
    have refused := inText.unexpected guarded (.token kind)
    cases lexemes with
    | nil => exact .error refused
    | cons lexeme rest =>
      have first := inText.lexemes lexeme List.mem_cons_self
      have others : Feed.IsIn text ⟨rest, ending⟩ :=
        ⟨fun lexeme member => inText.lexemes lexeme (List.mem_cons_of_mem _ member), inText.ending⟩
      by_cases fits : lexeme.token.kind = kind
      · simp only [Parser.eat, if_pos fits]
        cases left : Feed.guard ⟨rest, ending⟩ with
        | ok feed =>
          obtain ⟨rfl, guarded⟩ := Feed.guard_eq_ok_iff.mp left
          exact .ok ⟨rfl, first.2⟩ ⟨rfl, others, guarded⟩ (Nat.le_refl _) (Nat.le_refl _)
        | error failure =>
          -- The tokens end with a fault, which is what is reported.
          cases rest with
          | cons next rest => cases left
          | nil =>
            cases ending with
            | finish cursor => cases left
            | fault error cursor =>
              cases left
              exact .error ⟨⟨inText.ending.2, fun _ _ same => by cases same⟩, inText.ending.1⟩
      · simp only [Parser.eat, if_neg fits]
        exact .error refused
  unexpected := by
    rintro feed _ expected ⟨rfl, inText, guarded⟩
    exact inText.unexpected guarded expected
  tooLarge := by
    rintro token _ feed _ ⟨rfl, place⟩ ⟨rfl, inText, -⟩
    exact ⟨⟨place, fun _ _ same => by cases same⟩, inText.resume⟩

/-- Reading leaves the cursor in the text, and an error names a place of the text. -/
theorem Cursor.IsIn.parse {cursor : Cursor} (h : cursor.IsIn text) :
    cursor.parse.2.IsIn text ∧ ∀ error, cursor.parse.1 = .error error → error.IsIn text := by
  have feed := h.feed
  unfold Cursor.parse
  cases guarded : cursor.feed.guard with
  | error failure =>
    cases lexemes : cursor.feed.lexemes with
    | cons lexeme rest => simp [Feed.guard, lexemes] at guarded
    | nil =>
      have last := feed.ending
      cases ending : cursor.feed.ending with
      | finish cursor => simp [Feed.guard, lexemes, ending] at guarded
      | fault error cursor =>
        rw [ending] at last
        simp only [Feed.guard, lexemes, ending, Except.error.injEq] at guarded
        subst guarded
        refine ⟨last.1, ?_⟩
        rintro _ ⟨⟩
        exact ⟨last.2, fun _ _ same => by cases same⟩
  | ok left =>
    obtain ⟨rfl, ok⟩ := Feed.guard_eq_ok_iff.mp guarded
    have outcome := (FeedRelation.inText_lawful text).outcomes_program
      (show (FeedRelation.inText text).Feeds cursor.feed cursor.feed from ⟨rfl, feed, ok⟩)
    have goesOn : (Except.ok cursor.feed >>= Parser.program) = Parser.program cursor.feed := rfl
    rw [goesOn]
    generalize Parser.program cursor.feed = result at outcome
    cases outcome with
    | ok same related less less' => exact ⟨related.2.1.resume, fun _ failed => by cases failed⟩
    | error related =>
      refine ⟨related.2, ?_⟩
      rintro _ ⟨⟩
      exact related.1
    | stopped h => exact absurd h id

theorem Cursor.IsIn.parseRepeatedly {cursor : Cursor} (h : cursor.IsIn text) (times : Nat) :
    ∀ error, .error error ∈ cursor.parseRepeatedly times → error.IsIn text := by
  induction times generalizing cursor with
  | zero => simp [Cursor.parseRepeatedly]
  | succ times ih =>
    intro error member
    rcases List.mem_cons.mp member with first | later
    · exact h.parse.2 error first.symm
    · exact ih h.parse.1 error later

/-- Whatever is asked of a scanner, its cursor and the places in its answers are those that counting
    characters gives; so are the places of errors that reading a text reports, again and again, and
    at the end of the input this is the place behind the whole text. -/
theorem places_are_counted (source : String) :
    (∀ requests, ∀ step ∈ (Scanner.ofText source).session requests,
      step.2.cursor.position.IsIn step.2.text.toList ∧
        ∀ position ∈ step.1.places, position.IsIn step.2.text.toList) ∧
    (∀ times error, .error error ∈ (Cursor.ofText source).parseRepeatedly times →
      error.report.position.IsIn source.toList ∧
        ∀ expected position, error = .grammatical (.unexpected expected none position) →
          position = .behind source.toList) := by
  refine ⟨?_, ?_⟩
  · intro requests step member
    obtain ⟨exact, places⟩ := (Scanner.exact_ofText source).session requests step member
    exact ⟨exact.position, places⟩
  · intro times error member
    have inText := (Cursor.IsIn.ofText source).parseRepeatedly times error member
    exact ⟨inText.place, inText.atEnd⟩

/-- A character without a use behind a comment and a string of two lines each, and a function that
    is left open in the second line. -/
theorem places_are_counted_behind_lines :
    (∃ scanner, (.tokens (.error (.strayCharacter '@' ⟨14, 3, 4⟩)), scanner) ∈
        (Scanner.ofText "a /*\n*/ \"x\ny\" @").session [.next, .tokenize] ∧
      scanner.text = "a /*\n*/ \"x\ny\" @" ∧
      Position.IsIn "a /*\n*/ \"x\ny\" @".toList ⟨14, 3, 4⟩) ∧
    (.error (.grammatical (.unexpected (.bodyEnd "f") none ⟨25, 2, 3⟩)) ∈
        (Cursor.ofText "function f(): number \x7b\n  ").parseRepeatedly 1 ∧
      (⟨25, 2, 3⟩ : Position) = .behind "function f(): number \x7b\n  ".toList) := by
  have answers : (Scanner.ofText "a /*\n*/ \"x\ny\" @").session [.next, .tokenize] =
      [(.token (.ok (some ⟨.identifier, "a", ⟨0, 1, 1⟩⟩)),
          ⟨"a /*\n*/ \"x\ny\" @", ⟨" /*\n*/ \"x\ny\" @".toList, ⟨1, 1, 2⟩⟩⟩),
        (.tokens (.error (.strayCharacter '@' ⟨14, 3, 4⟩)),
          ⟨"a /*\n*/ \"x\ny\" @", ⟨['@'], ⟨14, 3, 4⟩⟩⟩)] := by
    cbv
  have readings : (Cursor.ofText "function f(): number \x7b\n  ").parseRepeatedly 1 =
      [.error (.grammatical (.unexpected (.bodyEnd "f") none ⟨25, 2, 3⟩))] := by
    cbv
  refine ⟨⟨⟨_, ⟨['@'], ⟨14, 3, 4⟩⟩⟩, ?_, rfl, ?_⟩, ?_, ?_⟩
  · rw [answers]
    exact List.mem_cons_of_mem _ List.mem_cons_self
  · exact ((places_are_counted "a /*\n*/ \"x\ny\" @").1 [.next, .tokenize] _
      (answers ▸ List.mem_cons_of_mem _ List.mem_cons_self)).2 _ List.mem_cons_self
  · rw [readings]
    exact List.mem_cons_self
  · exact ((places_are_counted "function f(): number \x7b\n  ").2 1 _
      (readings ▸ List.mem_cons_self)).2 _ _ rfl

end TinyScript
