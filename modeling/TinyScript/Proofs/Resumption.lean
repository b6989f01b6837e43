import TinyScript.Proofs.Moved
import TinyScript.Proofs.OnDemand

/-!
# Reading again and again

A text may be read again from where the last reading stopped, which is often in the middle of a
statement. Each reading is that of a text of its own, the characters from the cursor on, with its
places moved to where they stand in the whole text. The cursor passes at least one character at a
time unless it stands at the end or before a character without a use. From such a cursor all further
readings are the same, so that there are at most as many others as the text has characters.
-/

namespace TinyScript

/-! ## Texts that start at a place -/

/-- The place in a whole text that has the given place in the part from the origin on. -/
def Position.shift (origin position : Position) : Position where
  offset := origin.offset + position.offset
  line := origin.line + (position.line - 1)
  column := if position.line = 1 then origin.column + (position.column - 1) else position.column

theorem Position.shift_next (origin : Position) {position : Position} (line : 1 ≤ position.line)
    (column : 1 ≤ position.column) (char : Char) :
    (origin.shift position).next char = origin.shift (position.next char) := by
  obtain ⟨offset, row, col⟩ := position
  simp only at line column
  by_cases newline : char = '\n'
  · have other : row ≠ 0 := by omega
    simp [Position.next, Position.shift, newline, other]
    omega
  · by_cases first : row = 1
    · simp [Position.next, Position.shift, newline, first]
      omega
    · simp [Position.next, Position.shift, newline, first]
      omega

theorem Position.shift_after (origin : Position) {position : Position} (line : 1 ≤ position.line)
    (column : 1 ≤ position.column) (text : List Char) :
    (origin.shift position).after text = origin.shift (position.after text) := by
  induction text generalizing position with
  | nil => rfl
  | cons char text ih =>
    have counts : 1 ≤ (position.next char).line ∧ 1 ≤ (position.next char).column := by
      unfold Position.next
      split <;> simp [line]
    rw [Position.after_cons, Position.shift_next origin line column, ih counts.1 counts.2]
    rfl

namespace Cursor

variable {cursor behind : Cursor} {error : LexicalError}

/-- Reading from a cursor is reading the characters from there on as a text, at places that are
    shifted to the cursor. -/
theorem parse_rest (cursor : Cursor) :
    cursor.parse.1 = (Program.parse (String.ofList cursor.rest)).mapError
      (ParseError.moved cursor.position.shift) := by
  have along : (Cursor.ofText (String.ofList cursor.rest)).MovesAlong cursor.position.shift :=
    fun text => Position.shift_after _ (Nat.le_refl 1) (Nat.le_refl 1) text
  have moved :
      (Cursor.ofText (String.ofList cursor.rest)).moved cursor.position.shift = cursor := by
    rw [Cursor.ofText, String.toList_ofList]
    rfl
  have parsed := Cursor.parse_moved along
  rw [moved] at parsed
  rw [parsed]
  rfl

/-! ## Cursors that stay -/

theorem rest_of_finish (next : cursor.next = .finish behind) : behind.rest = [] := by
  simp only [Cursor.next] at next
  split at next <;> cases next
  rename_i nothing
  exact Front.eq_nil_of_nothing nothing

theorem parse_of_finish (next : cursor.next = .finish behind) :
    cursor.parse = (.ok ⟨[]⟩, behind) := by
  rw [Cursor.parse, feed_of_finish next]
  rfl

theorem parse_of_fault (next : cursor.next = .fault error behind) :
    cursor.parse = (.error (.lexical error), behind) := by
  rw [Cursor.parse, feed_of_fault next]
  rfl

theorem parse_of_nil (empty : cursor.rest = []) : cursor.parse = (.ok ⟨[]⟩, cursor) := by
  obtain ⟨rest, position⟩ := cursor
  subst empty
  exact parse_of_finish rfl

/-- A character without a use is not passed. -/
theorem next_of_stray {char : Char} {position : Position}
    (next : cursor.next = .fault (.strayCharacter char position) behind) :
    behind.next = .fault (.strayCharacter char position) behind := by
  obtain ⟨text, start⟩ := cursor
  obtain ⟨gap, rest, rfl, skipped, free⟩ := exists_gap text
  simp only [Cursor.next, skipGap_gap skipped free] at next
  have stays : (Cursor.mk rest (start.after gap)).skipGap = ⟨rest, start.after gap⟩ :=
    skipGap_gap (.nil _) free _
  cases front : Front.ofText rest with
  | stray found =>
    rw [front] at next
    cases next
    simp only [Cursor.next, stays, front]
  | nothing => rw [front] at next; cases next
  | token kind length => rw [front] at next; cases next
  | openString quote => rw [front] at next; cases next

/-- An open string is passed to the end of the text, and is at least one character. -/
theorem rest_of_openString {quote : Char} {position : Position}
    (next : cursor.next = .fault (.openString quote position) behind) :
    behind.rest.length < cursor.rest.length := by
  have skipped := behindGap_rest_length_le .blanks cursor.rest cursor.position
  rw [← Cursor.skipGap] at skipped
  simp only [Cursor.next] at next
  cases front : Front.ofText cursor.skipGap.rest with
  | openString found =>
    rw [front] at next
    cases next
    have nonempty : cursor.skipGap.rest ≠ [] := by
      intro empty
      rw [empty] at front
      cases front
    have some := List.length_pos_iff.mpr nonempty
    simp only [Cursor.pass, List.drop_length, List.length_nil]
    omega
  | nothing => rw [front] at next; cases next
  | token kind length => rw [front] at next; cases next
  | stray char => rw [front] at next; cases next

/-! ## Cursors that go on -/

theorem next_rest_length_le (cursor : Cursor) :
    cursor.next.cursor.rest.length ≤ cursor.rest.length := by
  have skipped := behindGap_rest_length_le .blanks cursor.rest cursor.position
  rw [← Cursor.skipGap] at skipped
  simp only [Cursor.next]
  cases Front.ofText cursor.skipGap.rest with
  | nothing => exact skipped
  | stray char => exact skipped
  | token kind length =>
    simp only [Step.cursor, Cursor.pass, List.length_drop]
    omega
  | openString quote => simp [Step.cursor, Cursor.pass]

theorem Reaches.rest_length_le {origin : Cursor} (reached : origin.Reaches cursor) :
    cursor.rest.length ≤ origin.rest.length := by
  induction reached with
  | here => exact Nat.le_refl _
  | token reached next ih =>
    have shorter := next_rest_length_lt next
    omega

/-- A reading leaves the cursor behind the step that follows one it has reached. -/
theorem exists_reached_parse (cursor : Cursor) :
    ∃ last, cursor.Reaches last ∧ cursor.parse.2 = last.next.cursor := by
  have ends := cursor.readingEnds_parse
  generalize cursor.parse.1 = answer, cursor.parse.2 = behind at ends
  cases ends with
  | program reached next => exact ⟨_, reached, by rw [next]; rfl⟩
  | fault reached next => exact ⟨_, reached, by rw [next]; rfl⟩
  | atToken reached next => exact ⟨_, reached, by rw [next]; rfl⟩
  | atEnd reached next => exact ⟨_, reached, by rw [next]; rfl⟩
  | tooLarge _ _ reached => exact ⟨_, reached, rfl⟩

theorem parse_rest_length_le (cursor : Cursor) :
    cursor.parse.2.rest.length ≤ cursor.rest.length := by
  obtain ⟨last, reached, behind⟩ := cursor.exists_reached_parse
  rw [behind]
  exact (next_rest_length_le last).trans reached.rest_length_le

/-- A reading that sees a token passes it. -/
theorem parse_rest_length_lt {token : Token} (next : cursor.next = .token token behind) :
    cursor.parse.2.rest.length < cursor.rest.length := by
  obtain ⟨last, reached, left⟩ := cursor.exists_reached_parse
  have le := next_rest_length_le last
  rw [left]
  cases reached with
  | here =>
    rw [next]
    exact next_rest_length_lt next
  | token reached before =>
    have shorter := next_rest_length_lt before
    have further := reached.rest_length_le
    omega

/-- Behind a program nothing is left. -/
theorem rest_of_parse_ok {program : Program} (parsed : cursor.parse.1 = .ok program) :
    cursor.parse.2.rest = [] := by
  have ends := cursor.readingEnds_parse
  rw [parsed] at ends
  generalize cursor.parse.2 = behind at ends
  cases ends with
  | program reached next => exact rest_of_finish next

/-! ## Readings one after the other -/

/-- The cursor from which a reading starts that comes after the given number of others. -/
def afterReadings (cursor : Cursor) (times : Nat) : Cursor :=
  (fun cursor => cursor.parse.2)^[times] cursor

theorem afterReadings_succ (cursor : Cursor) (times : Nat) :
    cursor.afterReadings (times + 1) = cursor.parse.2.afterReadings times :=
  Function.iterate_succ_apply _ times cursor

theorem afterReadings_add (cursor : Cursor) (times more : Nat) :
    cursor.afterReadings (times + more) = (cursor.afterReadings times).afterReadings more := by
  rw [Nat.add_comm]
  exact Function.iterate_add_apply _ more times cursor

/-- A reading that leaves the cursor where it is gives the same answer ever after. -/
theorem parse_afterReadings_of_fixed {answer : Except ParseError Program}
    (read : cursor.parse = (answer, cursor)) (times : Nat) :
    (cursor.afterReadings times).parse.1 = answer := by
  have fixed : cursor.parse.2 = cursor := by rw [read]
  have stays : cursor.afterReadings times = cursor := Function.iterate_fixed fixed times
  rw [stays, read]

theorem parseRepeatedly_eq_map (cursor : Cursor) (times : Nat) :
    cursor.parseRepeatedly times =
      (List.range times).map fun call => (cursor.afterReadings call).parse.1 := by
  induction times generalizing cursor with
  | zero => rfl
  | succ times ih =>
    rw [parseRepeatedly, ih, List.range_succ_eq_map, List.map_cons, List.map_map]
    simp only [Function.comp_def, Nat.succ_eq_add_one, afterReadings_succ]
    rfl

theorem IsIn.afterReadings {text : List Char} (inText : cursor.IsIn text) (times : Nat) :
    (cursor.afterReadings times).IsIn text := by
  induction times generalizing cursor with
  | zero => exact inText
  | succ times ih =>
    rw [afterReadings_succ]
    exact ih inText.parse.1

theorem afterReadings_rest_length_le (cursor : Cursor) (times : Nat) :
    (cursor.afterReadings times).rest.length ≤ cursor.rest.length := by
  induction times generalizing cursor with
  | zero => exact Nat.le_refl _
  | succ times ih =>
    rw [afterReadings_succ]
    exact (ih _).trans cursor.parse_rest_length_le

/-- The answers that readings come to in the end: an empty program, or a character without a use. -/
def IsLast (answer : Except ParseError Program) : Prop :=
  answer = .ok ⟨[]⟩ ∨
    ∃ char position, answer = .error (.lexical (.strayCharacter char position))

/-- The answers do not change any more, or characters are passed. -/
theorem stays_or_passes (cursor : Cursor) :
    (∃ last, IsLast last ∧ ∀ times, (cursor.afterReadings times).parse.1 = last) ∨
      cursor.parse.2.rest.length < cursor.rest.length := by
  -- The cursor behind the first reading is fixed, and is read with the same answer.
  have stays {last : Except ParseError Program} {behind : Cursor} (isLast : IsLast last)
      (first : cursor.parse = (last, behind)) (again : behind.parse = (last, behind)) :
      ∃ last, IsLast last ∧ ∀ times, (cursor.afterReadings times).parse.1 = last := by
    refine ⟨last, isLast, ?_⟩
    intro times
    cases times with
    | zero => exact congrArg Prod.fst first
    | succ times =>
      rw [afterReadings_succ, first]
      exact parse_afterReadings_of_fixed again times
  cases next : cursor.next with
  | token token behind => exact .inr (parse_rest_length_lt next)
  | finish behind =>
    exact .inl (stays (.inl rfl) (parse_of_finish next) (parse_of_nil (rest_of_finish next)))
  | fault error behind =>
    cases error with
    | strayCharacter char position =>
      exact .inl (stays (.inr ⟨char, position, rfl⟩) (parse_of_fault next)
        (parse_of_fault (next_of_stray next)))
    | openString quote position =>
      rw [parse_of_fault next]
      exact .inr (rest_of_openString next)

/-- After as many readings as there are characters, all answers are the same. -/
theorem settles (cursor : Cursor) :
    ∃ last, IsLast last ∧
      ∀ times, cursor.rest.length ≤ times → (cursor.afterReadings times).parse.1 = last := by
  induction length : cursor.rest.length using Nat.strong_induction_on generalizing cursor with
  | _ count ih =>
    rcases cursor.stays_or_passes with ⟨last, isLast, same⟩ | passes
    · exact ⟨last, isLast, fun times _ => same times⟩
    · rw [length] at passes
      obtain ⟨last, isLast, same⟩ := ih _ passes cursor.parse.2 rfl
      refine ⟨last, isLast, ?_⟩
      intro times enough
      obtain ⟨fewer, rfl⟩ : ∃ fewer, times = fewer + 1 := ⟨times - 1, by omega⟩
      rw [afterReadings_succ]
      exact same fewer (by omega)

theorem parse_after_ok {program : Program} (parsed : cursor.parse.1 = .ok program) (times : Nat) :
    (cursor.afterReadings (times + 1)).parse.1 = .ok ⟨[]⟩ := by
  rw [afterReadings_succ]
  exact parse_afterReadings_of_fixed (parse_of_nil (rest_of_parse_ok parsed)) times

end Cursor

/-- The cursor from which a source is read for the time that comes after the given number of
    others. -/
def callCursor (source : String) (call : Nat) : Cursor :=
  (Cursor.ofText source).afterReadings call

/-- Readings of a source one after the other. Each gives what the characters from its cursor on give
    as a text of their own, at places that are shifted to the cursor. The cursor never moves back.
    Behind a program there are only empty ones. After as many readings as the source has characters
    all answers are the same: an empty program, or a character without a use at one place. -/
theorem parseRepeatedly_resumes_and_settles (source : String) :
    (∀ times, (Cursor.ofText source).parseRepeatedly times =
      (List.range times).map fun call => (callCursor source call).parse.1) ∧
    (∀ call, (callCursor source call).parse.1 =
      (Program.parse (String.ofList
        (source.toList.drop (callCursor source call).position.offset))).mapError
        (ParseError.moved (callCursor source call).position.shift)) ∧
    (∀ call later, call ≤ later →
      (callCursor source call).position.offset ≤ (callCursor source later).position.offset) ∧
    (∀ call later program, call < later → (callCursor source call).parse.1 = .ok program →
      (callCursor source later).parse.1 = .ok ⟨[]⟩) ∧
    ∃ last, (last = .ok ⟨[]⟩ ∨
        ∃ char position, last = .error (.lexical (.strayCharacter char position))) ∧
      ∀ call, source.length ≤ call → (callCursor source call).parse.1 = last := by
  have inText (call : Nat) : (callCursor source call).IsIn source.toList :=
    (Cursor.IsIn.ofText source).afterReadings call
  refine ⟨(Cursor.ofText source).parseRepeatedly_eq_map, ?_, ?_, ?_, ?_⟩
  · intro call
    have rest : source.toList.drop (callCursor source call).position.offset =
        (callCursor source call).rest := by
      obtain ⟨before, text, place⟩ := inText call
      rw [place, text]
      exact List.drop_left
    rw [rest]
    exact Cursor.parse_rest _
  · intro call later le
    obtain ⟨more, rfl⟩ := Nat.exists_eq_add_of_le le
    have here := (inText call).offset_add
    have there := (inText (call + more)).offset_add
    have shorter : (callCursor source (call + more)).rest.length ≤
        (callCursor source call).rest.length := by
      rw [callCursor, Cursor.afterReadings_add]
      exact Cursor.afterReadings_rest_length_le _ more
    omega
  · intro call later program less parsed
    obtain ⟨more, rfl⟩ := Nat.exists_eq_add_of_lt less
    rw [callCursor, Nat.add_assoc, Cursor.afterReadings_add]
    exact Cursor.parse_after_ok parsed more
  · obtain ⟨last, isLast, same⟩ := (Cursor.ofText source).settles
    refine ⟨last, isLast, ?_⟩
    intro call enough
    refine same call ?_
    rw [Cursor.ofText, String.length_toList]
    exact enough

/-- A program behind a token that starts none, and a character without a use behind one. -/
theorem parseRepeatedly_resumes_and_settles_behind_errors :
    ((callCursor "; return a;" 1).parse.1 = .ok ⟨[.returnStatement (some (.identifier "a"))]⟩ ∧
      (callCursor "; return a;" 0).position.offset ≤
        (callCursor "; return a;" 1).position.offset ∧
      (callCursor "; return a;" 7).parse.1 = .ok ⟨[]⟩) ∧
    ("; @".length ≤ 3 ∧ (callCursor "; @" 3).parse.1 = (callCursor "; @" 90).parse.1) := by
  have parsed : (callCursor "; return a;" 1).parse.1 =
      .ok ⟨[.returnStatement (some (.identifier "a"))]⟩ := by
    cbv
  obtain ⟨-, -, forward, empty, -⟩ := parseRepeatedly_resumes_and_settles "; return a;"
  obtain ⟨-, -, -, -, last, -, same⟩ := parseRepeatedly_resumes_and_settles "; @"
  have short : "; @".length ≤ 3 := by decide
  refine ⟨⟨parsed, forward 0 1 (by decide), empty 1 7 _ (by decide) parsed⟩, short, ?_⟩
  rw [same 3 short, same 90 (short.trans (by decide))]

end TinyScript
