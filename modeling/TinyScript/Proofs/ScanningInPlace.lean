import TinyScript.Proofs.OnDemand

/-!
# Scanning in place

Tokens can be looked for in an array of characters, by an index that is moved in place. Every access
to the array is checked, and one that is out of range has no outcome. A loop has two more rounds
than there are characters, and one that runs out of them has no outcome either. In a text, moving to
the next token in place and moving a cursor there give the same answer and the same place. So no
access is out of range, also where the text ends right behind a slash, the opener of a comment or a
quote.
-/

namespace TinyScript

/-! ## Work in place -/

/-- Steps on a state that is changed in place. An access out of range has no outcome, and neither
    has a loop that runs out of rounds. -/
abbrev InPlace (σ : Type) := StateT σ Option

/-- Steps in place that may also be refused, with the state at that time. -/
abbrev Refusable (ε σ : Type) := ExceptT ε (InPlace σ)

section

variable {σ ε α β : Type} {state behind : σ} {value : α} {error : ε}

/-- Repeats a step for as long as it answers that there may be more to do. -/
def InPlace.loop (step : InPlace σ Bool) : Nat → InPlace σ Unit
  | 0 => failure
  | rounds + 1 => do
    if ← step then loop step rounds
    else return ()

/-- No outcome. -/
def Refusable.stuck : Refusable ε σ α :=
  ExceptT.mk failure

theorem InPlace.bind_of_eq {step : InPlace σ α} (more : α → InPlace σ β)
    (h : step state = some (value, behind)) : (step >>= more) state = more value behind := by
  change (step state).bind _ = _
  rw [h]
  rfl

theorem InPlace.bind_get (more : σ → InPlace σ β) : (get >>= more) state = more state state :=
  rfl

theorem InPlace.bind_lift {access : Option α} (more : α → InPlace σ β) (h : access = some value) :
    ((liftM access : InPlace σ α) >>= more) state = more value state := by
  rw [h]
  rfl

theorem InPlace.loop_of_true {step : InPlace σ Bool} (h : step state = some (true, behind))
    (rounds : Nat) : loop step (rounds + 1) state = loop step rounds behind := by
  rw [loop, bind_of_eq _ h]
  rfl

theorem InPlace.loop_of_false {step : InPlace σ Bool} (h : step state = some (false, behind))
    (rounds : Nat) : loop step (rounds + 1) state = some ((), behind) := by
  rw [loop, bind_of_eq _ h]
  rfl

theorem Refusable.bind_of_ok {step : Refusable ε σ α} (more : α → Refusable ε σ β)
    (h : step state = some (.ok value, behind)) : (step >>= more) state = more value behind := by
  change (step state).bind _ = _
  rw [h]
  rfl

theorem Refusable.bind_of_error {step : Refusable ε σ α} (more : α → Refusable ε σ β)
    (h : step state = some (.error error, behind)) :
    (step >>= more) state = some (.error error, behind) := by
  change (step state).bind _ = _
  rw [h]
  rfl

theorem Refusable.bind_get (more : σ → Refusable ε σ β) :
    (get >>= more) state = more state state :=
  rfl

theorem Refusable.bind_access {access : Option α} (more : α → Refusable ε σ β)
    (h : access = some value) :
    ((liftM access : Refusable ε σ α) >>= more) state = more value state := by
  rw [h]
  rfl

theorem Refusable.bind_lift {step : InPlace σ α} (more : α → Refusable ε σ β)
    (h : step state = some (value, behind)) :
    ((liftM step : Refusable ε σ α) >>= more) state = more value behind := by
  apply Refusable.bind_of_ok
  change (step state).bind _ = _
  rw [h]
  rfl

end

/-- A text as an array of characters, and a place in it. -/
structure ArrayCursor where
  chars : Array Char
  position : Position
  deriving DecidableEq, Repr

namespace ArrayCursor

/-- The characters from one index up to another, which have to be in range. -/
def slice? (chars : Array Char) (start stop : Nat) : Option (List Char) :=
  if start ≤ stop ∧ stop ≤ chars.size then some (chars.extract start stop).toList else none

/-- Whether no character is left. -/
def atEnd : InPlace ArrayCursor Bool := do
  let cursor ← get
  return decide (cursor.chars.size ≤ cursor.position.offset)

/-- The character at the place. -/
def peek : InPlace ArrayCursor Char := do
  let cursor ← get
  cursor.chars[cursor.position.offset]?

/-- The character behind the place, where there is one. -/
def peekNext : InPlace ArrayCursor (Option Char) := do
  let cursor ← get
  return cursor.chars[cursor.position.offset + 1]?

/-- Passes the character at the place. -/
def advance : InPlace ArrayCursor Unit := do
  let char ← peek
  modify fun cursor => { cursor with position := cursor.position.next char }

/-- The rounds that a loop over the text has: more than there are characters, and one to spare. -/
def rounds (cursor : ArrayCursor) : Nat :=
  cursor.chars.size + 2

/-- Repeats a step over the text. -/
def repeatedly (step : InPlace ArrayCursor Bool) : InPlace ArrayCursor Unit := do
  InPlace.loop step (← get).rounds

/-- Passes a character of a sort, and tells whether there was one. -/
def advanceIf (sort : Char → Bool) : InPlace ArrayCursor Bool := do
  if ← atEnd then return false
  else if sort (← peek) then
    advance
    return true
  else return false

/-- Passes characters as long as they are of a sort. -/
def advanceWhile (sort : Char → Bool) : InPlace ArrayCursor Unit :=
  repeatedly (advanceIf sort)

/-- Whether two neighbours behind an opener are the end of a comment. -/
def commentCloses : InPlace ArrayCursor Bool := do
  let cursor ← get
  let behind ← slice? cursor.chars (cursor.position.offset + 2) cursor.chars.size
  return (behind.zip behind.tail).contains ('*', '/')

/-- Passes the end of a comment or else a character, and tells whether the comment goes on. -/
def advanceInComment : InPlace ArrayCursor Bool := do
  if ← atEnd then return false
  else if (← peek) = '*' ∧ (← peekNext) = some '/' then
    advance
    advance
    return false
  else
    advance
    return true

/-- Passes a comment. -/
def skipComment : InPlace ArrayCursor Unit := do
  advance
  advance
  repeatedly advanceInComment

/-- Passes blanks or a comment, and tells whether there was something to pass. -/
def skipPiece : InPlace ArrayCursor Bool := do
  if ← atEnd then return false
  else
    let char ← peek
    let next ← peekNext
    if isBlank char then
      advanceWhile isBlank
      return true
    else if char = '/' ∧ next = some '/' then
      advanceWhile (· ≠ '\n')
      return true
    else if char = '/' ∧ next = some '*' then
      if ← commentCloses then
        skipComment
        return true
      else return false
    else return false

/-- Passes blanks and comments. -/
def skipGap : InPlace ArrayCursor Unit :=
  repeatedly skipPiece

/-- The text from an index up to the place. -/
def textFrom (start : Nat) : InPlace ArrayCursor String := do
  let cursor ← get
  return String.ofList (← slice? cursor.chars start cursor.position.offset)

/-- Passes a string that starts with the given quote. -/
def quoted (quote : Char) : Refusable LexicalError ArrayCursor TokenKind := do
  let start := (← get).position
  advance
  advanceWhile (· ≠ quote)
  if ← atEnd then throw (.openString quote start)
  else
    advance
    return .string

/-- Passes the token that starts with the given character, and tells its kind. -/
def tokenFrom (char : Char) : Refusable LexicalError ArrayCursor TokenKind := do
  let start := (← get).position
  if char.isDigit then
    advanceWhile Char.isDigit
    return .number
  else if isQuote char then quoted char
  else if isWordStart char then
    advanceWhile isWordPart
    return .ofWord (← textFrom start.offset)
  else
    match TokenKind.symbol? char with
    | some kind =>
      advance
      return kind
    | none => throw (.strayCharacter char start)

/-- Moves to the next token. -/
def next : Refusable LexicalError ArrayCursor (Option Token) := do
  skipGap
  if ← atEnd then return none
  else
    let start := (← get).position
    let kind ← tokenFrom (← peek)
    return some ⟨kind, ← textFrom start.offset, start⟩

/-- The tokens from the place on, behind those that were found before. -/
def tokensAfter (found : List Token) : Nat → Refusable LexicalError ArrayCursor (List Token)
  | 0 => .stuck
  | rounds + 1 => do
    match ← next with
    | some token => tokensAfter (found ++ [token]) rounds
    | none => return found

/-- All tokens from the place on. -/
def tokens : Refusable LexicalError ArrayCursor (List Token) := do
  tokensAfter [] (← get).rounds

end ArrayCursor

/-! ## Agreement -/

/-- What a step answers. -/
def Step.answer : Step → Except LexicalError (Option Token)
  | finish _ => .ok none
  | fault error _ => .error error
  | token found _ => .ok (some found)

namespace ArrayCursor

variable {text body rest : List Char} {cursor : Cursor} {position : Position} {char : Char}

theorem getElem?_toArray (h : cursor.IsIn text) (count : Nat) :
    text.toArray[cursor.position.offset + count]? = cursor.rest[count]? := by
  obtain ⟨before, rfl, place⟩ := h
  rw [place, List.getElem?_toArray, Position.behind,
    List.getElem?_append_right (Nat.le_add_right _ _), Nat.add_sub_cancel_left]

theorem atEnd_eq (h : cursor.IsIn text) :
    atEnd ⟨text.toArray, cursor.position⟩ =
      some (cursor.rest.isEmpty, ⟨text.toArray, cursor.position⟩) := by
  have size := h.offset_add
  have same : decide (text.toArray.size ≤ cursor.position.offset) = cursor.rest.isEmpty := by
    cases rest : cursor.rest with
    | nil => simp [rest] at size ⊢; omega
    | cons char rest => simp [rest] at size ⊢; omega
  rw [← same]
  rfl

theorem peek_eq (h : Cursor.IsIn text ⟨char :: rest, position⟩) :
    peek ⟨text.toArray, position⟩ = some (char, ⟨text.toArray, position⟩) := by
  have found : text.toArray[position.offset]? = some char := getElem?_toArray h 0
  change (text.toArray[position.offset]?).bind _ = _
  rw [found]
  rfl

theorem peekNext_eq (h : Cursor.IsIn text ⟨char :: rest, position⟩) :
    peekNext ⟨text.toArray, position⟩ = some (rest.head?, ⟨text.toArray, position⟩) := by
  have found := getElem?_toArray h 1
  rw [List.getElem?_cons_succ, ← List.head?_eq_getElem?] at found
  rw [← found]
  rfl

theorem advance_eq (h : Cursor.IsIn text ⟨char :: rest, position⟩) :
    advance ⟨text.toArray, position⟩ = some ((), ⟨text.toArray, position.next char⟩) := by
  rw [advance, InPlace.bind_of_eq _ (peek_eq h)]
  rfl

/-- A character is passed from the front of what follows. -/
theorem isIn_next (h : Cursor.IsIn text ⟨char :: rest, position⟩) :
    Cursor.IsIn text ⟨rest, position.next char⟩ :=
  Cursor.IsIn.pass_append (show Cursor.IsIn text ⟨[char] ++ rest, position⟩ from h)

/-- Before a character a loop goes on. -/
theorem bind_atEnd {α : Type} {finish more : InPlace ArrayCursor α}
    (h : Cursor.IsIn text ⟨char :: rest, position⟩) :
    (atEnd >>= fun ended => if ended = true then finish else more) ⟨text.toArray, position⟩ =
      more ⟨text.toArray, position⟩ := by
  rw [InPlace.bind_of_eq _ (atEnd_eq h)]
  rfl

theorem rest_length_lt_rounds (h : cursor.IsIn text) :
    cursor.rest.length < (ArrayCursor.mk text.toArray cursor.position).rounds := by
  have size := h.offset_add
  rw [rounds, List.size_toArray]
  omega

/-- A loop leads from a cursor to a place if each of its steps stops there, or goes on to a later
    cursor from which the loop leads there too. -/
theorem repeatedly_eq {step : InPlace ArrayCursor Bool} (Leads : Cursor → Position → Prop)
    (one : ∀ {cursor : Cursor} {last : Position}, cursor.IsIn text → Leads cursor last →
      step ⟨text.toArray, cursor.position⟩ = some (false, ⟨text.toArray, last⟩) ∨
      ∃ behind : Cursor, behind.IsIn text ∧ behind.rest.length < cursor.rest.length ∧
        Leads behind last ∧
        step ⟨text.toArray, cursor.position⟩ = some (true, ⟨text.toArray, behind.position⟩))
    {last : Position} (h : cursor.IsIn text) (leads : Leads cursor last) :
    repeatedly step ⟨text.toArray, cursor.position⟩ = some ((), ⟨text.toArray, last⟩) := by
  have run : ∀ rounds (cursor : Cursor), cursor.IsIn text → Leads cursor last →
      cursor.rest.length < rounds →
      InPlace.loop step rounds ⟨text.toArray, cursor.position⟩ =
        some ((), ⟨text.toArray, last⟩) := by
    intro rounds
    induction rounds with
    | zero =>
      intro cursor h leads enough
      omega
    | succ rounds ih =>
      intro cursor h leads enough
      rcases one h leads with stopped | ⟨behind, further, shorter, leads, passed⟩
      · exact InPlace.loop_of_false stopped rounds
      · rw [InPlace.loop_of_true passed]
        exact ih behind further leads (by omega)
  exact run _ cursor h leads (rest_length_lt_rounds h)

theorem advanceWhile_eq (sort : Char → Bool) (h : Cursor.IsIn text ⟨rest, position⟩) :
    advanceWhile sort ⟨text.toArray, position⟩ =
      some ((), ⟨text.toArray, position.after (rest.takeWhile sort)⟩) := by
  refine repeatedly_eq
    (fun cursor last => cursor.position.after (cursor.rest.takeWhile sort) = last) ?_ h rfl
  rintro ⟨rest, position⟩ last h rfl
  cases rest with
  | nil =>
    left
    rw [advanceIf, InPlace.bind_of_eq _ (atEnd_eq h)]
    rfl
  | cons char rest =>
    rw [advanceIf, bind_atEnd h, InPlace.bind_of_eq _ (peek_eq h)]
    by_cases fits : sort char = true
    · rw [if_pos fits, InPlace.bind_of_eq _ (advance_eq h)]
      refine .inr ⟨_, isIn_next h, Nat.lt_succ_self _, ?_, rfl⟩
      rw [List.takeWhile_cons_of_pos fits]
      rfl
    · rw [if_neg fits, List.takeWhile_cons_of_neg fits]
      exact .inl rfl

/-! ### Gaps -/

theorem offset_after (position : Position) (text : List Char) :
    (position.after text).offset = position.offset + text.length := by
  induction text generalizing position with
  | nil => rfl
  | cons char text ih =>
    have next : (position.next char).offset = position.offset + 1 := by
      unfold Position.next
      split <;> rfl
    rw [Position.after_cons, ih, next, List.length_cons]
    omega

theorem slice?_append (before body rest : List Char) :
    slice? (before ++ (body ++ rest)).toArray before.length (before.length + body.length) =
      some body := by
  have within : before.length ≤ before.length + body.length ∧
      before.length + body.length ≤ (before ++ (body ++ rest)).toArray.size := by
    simp
  rw [slice?, if_pos within]
  simp

theorem neighbours_contain_iff (text : List Char) :
    (text.zip text.tail).contains ('*', '/') = closesComment text := by
  fun_induction closesComment text with
  | case1 rest => rfl
  | case2 char rest other ih =>
    cases rest with
    | nil => rfl
    | cons next rest =>
      have apart : (('*', '/') == (char, next)) = false := by
        rw [beq_eq_false_iff_ne]
        rintro ⟨⟩
        exact other rest rfl rfl
      rw [← ih, List.tail_cons, List.zip_cons_cons, List.contains_cons, apart, Bool.false_or]
      rfl
  | case3 => rfl

theorem commentCloses_eq (h : Cursor.IsIn text ⟨'/' :: '*' :: rest, position⟩) :
    commentCloses ⟨text.toArray, position⟩ =
      some (closesComment rest, ⟨text.toArray, position⟩) := by
  obtain ⟨before, rfl, rfl⟩ := h
  -- The slice starts behind the two characters of the opener, which are there.
  have cut : slice? (before ++ '/' :: '*' :: rest).toArray (before.length + 2)
      (before ++ '/' :: '*' :: rest).toArray.size = some rest := by
    have cut := slice?_append (before ++ ['/', '*']) rest []
    have size : (before ++ '/' :: '*' :: rest).toArray.size =
        (before ++ ['/', '*']).length + rest.length := by
      simp
      omega
    rw [List.append_nil, List.append_assoc] at cut
    rw [size]
    simpa using cut
  rw [commentCloses, InPlace.bind_get, ← neighbours_contain_iff]
  exact InPlace.bind_lift _ cut

/-- The place behind the first end of a comment that a cursor comes to. -/
def ClosesAt (cursor : Cursor) (last : Position) : Prop :=
  ∃ body rest, ¬ commentEnd <:+: body ∧ cursor.rest = body ++ commentEnd ++ rest ∧
    last = cursor.position.after (body ++ commentEnd)

theorem repeatedly_advanceInComment_eq {last : Position} (h : cursor.IsIn text)
    (closes : ClosesAt cursor last) :
    repeatedly advanceInComment ⟨text.toArray, cursor.position⟩ =
      some ((), ⟨text.toArray, last⟩) := by
  refine repeatedly_eq ClosesAt ?_ h closes
  rintro ⟨_, position⟩ last h ⟨body, rest, first, rfl, rfl⟩
  cases body with
  | nil =>
    have inside : Cursor.IsIn text ⟨'*' :: '/' :: rest, position⟩ := h
    left
    rw [advanceInComment, bind_atEnd inside, InPlace.bind_of_eq _ (peek_eq inside),
      InPlace.bind_of_eq _ (peekNext_eq inside), if_pos ⟨rfl, rfl⟩,
      InPlace.bind_of_eq _ (advance_eq inside),
      InPlace.bind_of_eq _ (advance_eq (isIn_next inside))]
    rfl
  | cons char body =>
    rw [List.infix_cons_iff, not_or] at first
    rw [List.cons_append, List.cons_append] at h
    have inside : ¬ (char = '*' ∧ (body ++ commentEnd ++ rest).head? = some '/') := by
      rintro ⟨rfl, slash⟩
      obtain ⟨behind, same⟩ := List.head?_eq_some_iff.mp slash
      exact not_commentEnd_of_first first.1 ⟨behind, congrArg ('*' :: ·) same.symm⟩
    refine .inr ⟨_, isIn_next h, Nat.lt_succ_self _, ⟨body, rest, first.2, rfl, rfl⟩, ?_⟩
    rw [advanceInComment, bind_atEnd h, InPlace.bind_of_eq _ (peek_eq h),
      InPlace.bind_of_eq _ (peekNext_eq h), if_neg inside, InPlace.bind_of_eq _ (advance_eq h)]
    rfl

theorem skipComment_eq (first : ¬ commentEnd <:+: body)
    (h : Cursor.IsIn text ⟨'/' :: '*' :: (body ++ commentEnd ++ rest), position⟩) :
    skipComment ⟨text.toArray, position⟩ =
      some ((), ⟨text.toArray, position.after ('/' :: '*' :: (body ++ commentEnd))⟩) := by
  rw [skipComment, InPlace.bind_of_eq _ (advance_eq h),
    InPlace.bind_of_eq _ (advance_eq (isIn_next h))]
  exact repeatedly_advanceInComment_eq (isIn_next (isIn_next h)) ⟨body, rest, first, rfl, rfl⟩

/-- A piece of a gap is passed where one stands. -/
theorem skipPiece_eq (h : Cursor.IsIn text ⟨rest, position⟩) :
    (∃ piece behind, rest = piece ++ behind ∧ piece ≠ [] ∧ GapPiece piece behind ∧
      skipPiece ⟨text.toArray, position⟩ = some (true, ⟨text.toArray, position.after piece⟩)) ∨
    (GapFree rest ∧
      skipPiece ⟨text.toArray, position⟩ = some (false, ⟨text.toArray, position⟩)) := by
  cases rest with
  | nil =>
    refine .inr ⟨⟨by simp, by simp, by simp⟩, ?_⟩
    rw [skipPiece, InPlace.bind_of_eq _ (atEnd_eq h)]
    rfl
  | cons char rest =>
    rw [skipPiece, bind_atEnd h, InPlace.bind_of_eq _ (peek_eq h),
      InPlace.bind_of_eq _ (peekNext_eq h)]
    by_cases blank : isBlank char = true
    · rw [if_pos blank, InPlace.bind_of_eq _ (advanceWhile_eq isBlank h)]
      refine .inl ⟨_, _, List.takeWhile_append_dropWhile.symm, ?_, .blanks ?_ ?_, rfl⟩
      · simp [blank]
      · simp [blank]
      · exact List.all_eq_true.mp List.all_takeWhile
    · rw [if_neg blank]
      by_cases line : char = '/' ∧ rest.head? = some '/'
      · rw [if_pos line, InPlace.bind_of_eq _ (advanceWhile_eq _ h)]
        obtain ⟨rfl, slash⟩ := line
        obtain ⟨rest, rfl⟩ := List.head?_eq_some_iff.mp slash
        refine .inl ⟨_, _, ?_, ?_, gapPiece_line rest, ?_⟩
        · simp [List.takeWhile_append_dropWhile]
        · simp
        · simp [pure, StateT.pure]
      · rw [if_neg line]
        by_cases block : char = '/' ∧ rest.head? = some '*'
        · rw [if_pos block]
          obtain ⟨rfl, star⟩ := block
          obtain ⟨rest, rfl⟩ := List.head?_eq_some_iff.mp star
          rw [InPlace.bind_of_eq _ (commentCloses_eq h)]
          by_cases closes : closesComment rest = true
          · obtain ⟨body, behind, rfl, first⟩ :=
              exists_first_commentEnd (closesComment_iff.mp closes)
            rw [if_pos closes, InPlace.bind_of_eq _ (skipComment_eq first h)]
            exact .inl ⟨_, behind, by simp, by simp, .blockComment first, rfl⟩
          · rw [if_neg closes]
            refine .inr ⟨⟨by simpa using blank, by simp, ?_⟩, rfl⟩
            rintro _ ⟨⟩
            rwa [← closesComment_iff]
        · rw [if_neg block]
          refine .inr ⟨⟨by simpa using blank, ?_, ?_⟩, rfl⟩
          · rintro ⟨behind, same⟩
            cases same
            exact line ⟨rfl, rfl⟩
          · rintro behind same
            cases same
            exact absurd ⟨rfl, rfl⟩ block

theorem skipGap_eq (h : cursor.IsIn text) :
    skipGap ⟨text.toArray, cursor.position⟩ =
      some ((), ⟨text.toArray, cursor.skipGap.position⟩) := by
  refine repeatedly_eq (fun cursor last => cursor.skipGap.position = last) ?_ h rfl
  rintro ⟨rest, position⟩ last h rfl
  rcases skipPiece_eq h with ⟨piece, behind, rfl, nonempty, isPiece, passed⟩ | ⟨free, stopped⟩
  · have shorter : behind.length < (piece ++ behind).length := by
      have := List.length_pos_iff.mpr nonempty
      rw [List.length_append]
      omega
    refine .inr ⟨⟨behind, position.after piece⟩, Cursor.IsIn.pass_append h, shorter, ?_, passed⟩
    rw [Cursor.skipGap, Cursor.skipGap, Cursor.behindGap_piece isPiece]
  · left
    rw [Cursor.skipGap, Cursor.behindGap_of_gapFree free]
    exact stopped

/-! ### Tokens -/

theorem textFrom_eq (h : Cursor.IsIn text ⟨body ++ rest, position⟩) :
    textFrom position.offset ⟨text.toArray, position.after body⟩ =
      some (String.ofList body, ⟨text.toArray, position.after body⟩) := by
  have stop := offset_after position body
  obtain ⟨before, rfl, rfl⟩ := h
  have cut := slice?_append before body rest
  rw [textFrom, InPlace.bind_get, InPlace.bind_lift _ (by rw [stop]; exact cut)]
  rfl

theorem isIn_after (h : Cursor.IsIn text ⟨char :: (body ++ rest), position⟩) :
    Cursor.IsIn text ⟨rest, (position.next char).after body⟩ :=
  Cursor.IsIn.pass_append (isIn_next h)

/-- A string that is closed is passed with its quotes. -/
theorem quoted_of_closed {quote : Char} (free : quote ∉ body)
    (h : Cursor.IsIn text ⟨quote :: (body ++ quote :: rest), position⟩) :
    quoted quote ⟨text.toArray, position⟩ =
      some (.ok .string, ⟨text.toArray, position.after (quote :: (body ++ [quote]))⟩) := by
  have run := advanceWhile_eq (· ≠ quote) (isIn_next h)
  rw [takeWhile_ne_append free] at run
  have closing := isIn_after h
  rw [quoted, Refusable.bind_get]
  simp only
  rw [Refusable.bind_lift _ (advance_eq h), Refusable.bind_lift _ run,
    Refusable.bind_lift _ (atEnd_eq closing)]
  simp only [List.isEmpty_cons, Bool.false_eq_true, if_false]
  rw [Refusable.bind_lift _ (advance_eq closing), Position.after_cons, Position.after_append]
  rfl

/-- A string that is left open is passed to the end of the text. -/
theorem quoted_of_open {quote : Char} (unclosed : quote ∉ rest)
    (h : Cursor.IsIn text ⟨quote :: rest, position⟩) :
    quoted quote ⟨text.toArray, position⟩ =
      some (.error (.openString quote position),
        ⟨text.toArray, position.after (quote :: rest)⟩) := by
  have run := advanceWhile_eq (· ≠ quote) (isIn_next h)
  have all : rest.takeWhile (· ≠ quote) = rest := by
    rw [List.takeWhile_eq_self_iff]
    intro char member
    have other : char ≠ quote := ne_of_mem_of_not_mem member unclosed
    simpa using other
  rw [all] at run
  have last : Cursor.IsIn text ⟨[], (position.next quote).after rest⟩ :=
    isIn_after (by rwa [List.append_nil])
  rw [quoted, Refusable.bind_get]
  simp only
  rw [Refusable.bind_lift _ (advance_eq h), Refusable.bind_lift _ run,
    Refusable.bind_lift _ (atEnd_eq last)]
  rfl

/-- What stands at the front of the text is passed, or it is refused. -/
theorem tokenFrom_eq (h : Cursor.IsIn text ⟨char :: rest, position⟩) :
    (∃ kind length, Front.ofText (char :: rest) = .token kind length ∧
      tokenFrom char ⟨text.toArray, position⟩ =
        some (.ok kind, ⟨text.toArray, position.after ((char :: rest).take length)⟩)) ∨
    (Front.ofText (char :: rest) = .openString char ∧
      tokenFrom char ⟨text.toArray, position⟩ =
        some (.error (.openString char position), ⟨text.toArray, position.after (char :: rest)⟩)) ∨
    (Front.ofText (char :: rest) = .stray char ∧
      tokenFrom char ⟨text.toArray, position⟩ =
        some (.error (.strayCharacter char position), ⟨text.toArray, position⟩)) := by
  rw [tokenFrom, Refusable.bind_get]
  simp only [Front.ofText]
  by_cases digit : char.isDigit = true
  · rw [if_pos digit, if_pos digit, Refusable.bind_lift _ (advanceWhile_eq _ h)]
    refine .inl ⟨_, _, rfl, ?_⟩
    rw [List.takeWhile_cons_of_pos digit, Nat.add_comm, List.take_succ_cons, take_length_takeWhile]
    rfl
  · rw [if_neg digit, if_neg digit]
    by_cases quote : isQuote char = true
    · rw [if_pos quote, if_pos quote]
      by_cases closed : char ∈ rest
      · rw [if_pos closed]
        obtain ⟨content, behind, rfl, free⟩ := List.eq_append_cons_of_mem closed
        refine .inl ⟨_, _, rfl, ?_⟩
        have cut : (char :: (content ++ char :: behind)).take (2 + content.length) =
            char :: (content ++ [char]) := by
          have split : char :: (content ++ char :: behind) =
              (char :: (content ++ [char])) ++ behind := by
            simp
          rw [split]
          exact List.take_left' (by simp; omega)
        rw [quoted_of_closed free h, takeWhile_ne_append free, cut]
      · rw [if_neg closed]
        exact .inr (.inl ⟨rfl, quoted_of_open closed h⟩)
    · rw [if_neg quote, if_neg quote]
      by_cases start : isWordStart char = true
      · have word : Cursor.IsIn text
            ⟨(char :: rest.takeWhile isWordPart) ++ rest.dropWhile isWordPart, position⟩ := by
          rwa [List.cons_append, List.takeWhile_append_dropWhile]
        rw [if_pos start, if_pos start, Refusable.bind_lift _ (advanceWhile_eq _ h),
          List.takeWhile_cons_of_pos (isWordPart_iff.mpr (.inl start)),
          Refusable.bind_lift _ (textFrom_eq word)]
        refine .inl ⟨_, _, rfl, ?_⟩
        rw [List.length_cons, List.take_succ_cons, take_length_takeWhile]
        rfl
      · rw [if_neg start, if_neg start]
        cases symbol : TokenKind.symbol? char with
        | some kind =>
          refine .inl ⟨_, _, rfl, ?_⟩
          simp only
          rw [Refusable.bind_lift _ (advance_eq h)]
          rfl
        | none => exact .inr (.inr ⟨rfl, rfl⟩)

/-- Moving to the next token in place is what moving a cursor is. -/
theorem next_eq (h : cursor.IsIn text) :
    next ⟨text.toArray, cursor.position⟩ =
      some (cursor.next.answer, ⟨text.toArray, cursor.next.cursor.position⟩) := by
  have here := h.skipGap
  rw [next, Refusable.bind_lift _ (skipGap_eq h), Refusable.bind_lift _ (atEnd_eq here)]
  simp only [Cursor.next]
  generalize cursor.skipGap = start at here
  obtain ⟨rest, position⟩ := start
  cases rest with
  | nil => rfl
  | cons char rest =>
    simp only [List.isEmpty_cons, Bool.false_eq_true, if_false]
    rw [Refusable.bind_get]
    simp only
    rw [Refusable.bind_lift _ (peek_eq here)]
    rcases tokenFrom_eq here with ⟨kind, length, front, passed⟩ | ⟨front, refused⟩ |
      ⟨front, refused⟩
    · rw [Refusable.bind_of_ok _ passed, front]
      have word : Cursor.IsIn text
          ⟨(char :: rest).take length ++ (char :: rest).drop length, position⟩ := by
        rwa [List.take_append_drop]
      rw [Refusable.bind_lift _ (textFrom_eq word)]
      rfl
    · rw [Refusable.bind_of_error _ refused, front]
      simp only [Step.answer, Step.cursor, Cursor.pass, List.take_length]
    · rw [Refusable.bind_of_error _ refused, front]
      rfl

theorem tokensAfter_eq (h : cursor.IsIn text) (found : List Token) {rounds : Nat}
    (enough : cursor.rest.length < rounds) :
    tokensAfter found rounds ⟨text.toArray, cursor.position⟩ =
      some (cursor.feed.tokens.map (found ++ ·),
        ⟨text.toArray, cursor.feed.ending.cursor.position⟩) := by
  induction rounds generalizing cursor found with
  | zero => omega
  | succ rounds ih =>
    have moved := next_eq h
    rw [tokensAfter]
    cases next : cursor.next with
    | finish behind =>
      rw [next] at moved
      rw [Refusable.bind_of_ok _ moved, Cursor.feed_of_finish next]
      simp only [Feed.tokens, List.map_nil, Except.map, List.append_nil]
      rfl
    | fault error behind =>
      rw [next] at moved
      rw [Refusable.bind_of_error _ moved, Cursor.feed_of_fault next]
      rfl
    | token token behind =>
      rw [next] at moved
      have inText := (Cursor.Reaches.token .here next).isIn h
      have shorter := Cursor.next_rest_length_lt next
      have more := ih inText (found ++ [token]) (by omega)
      rw [Refusable.bind_of_ok _ moved, Cursor.feed_of_next next]
      simp only
      refine more.trans ?_
      cases ending : behind.feed.ending with
      | finish last => simp [Feed.tokens, ending, Except.map]
      | fault error last => simp [Feed.tokens, ending, Except.map]

/-- The tokens in place are those of the feed. -/
theorem tokens_eq (h : cursor.IsIn text) :
    tokens ⟨text.toArray, cursor.position⟩ =
      some (cursor.feed.tokens, ⟨text.toArray, cursor.feed.ending.cursor.position⟩) := by
  have same : cursor.feed.tokens.map ([] ++ ·) = cursor.feed.tokens := by
    cases cursor.feed.tokens <;> rfl
  rw [tokens, Refusable.bind_get, tokensAfter_eq h [] (rest_length_lt_rounds h), same]

end ArrayCursor

end TinyScript
