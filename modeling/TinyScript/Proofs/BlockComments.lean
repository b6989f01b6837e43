import TinyScript.Proofs.Gaps

/-!
# Block comments

A comment is opened only after a look ahead for its end, and then it is walked through by another
function. The two agree: the walk comes to an end of the comment exactly if one was seen, and it
is the first one behind the opener, whose own star does not count. So the end is always still
ahead inside a block comment, and skipping a gap never runs to the end of the text there.
-/

namespace TinyScript

/-! ## Walking to the end of a comment -/

namespace Cursor

variable {text body rest : List Char}

theorem throughComment_of_unclosed (unclosed : ¬ commentEnd <:+: text) (position : Position) :
    throughComment text position = .ranOut ⟨[], position.after text⟩ := by
  induction text generalizing position with
  | nil => rfl
  | cons char text ih =>
    rw [List.infix_cons_iff, not_or] at unclosed
    rw [throughComment, ih unclosed.2]
    · rfl
    · rintro behind rfl rfl
      exact unclosed.1 ⟨behind, rfl⟩

theorem exists_closed_iff (text : List Char) (position : Position) :
    (∃ behind, throughComment text position = .closed behind) ↔ closesComment text = true := by
  rw [closesComment_iff]
  constructor
  · rintro ⟨behind, closed⟩
    by_contra unclosed
    rw [throughComment_of_unclosed unclosed] at closed
    cases closed
  · intro closes
    obtain ⟨body, rest, rfl, first⟩ := exists_first_commentEnd closes
    exact ⟨_, throughComment_of_first first rest position⟩

theorem length_le_of_first {count : Nat} (first : ¬ commentEnd <:+: body)
    (found : commentEnd <+: (body ++ commentEnd ++ rest).drop count) : body.length ≤ count := by
  induction body generalizing count with
  | nil => exact Nat.zero_le count
  | cons char body ih =>
    rw [List.infix_cons_iff, not_or] at first
    cases count with
    | zero => exact absurd found (not_commentEnd_of_first first.1)
    | succ count => exact Nat.succ_le_succ (ih first.2 found)

theorem pass_append (before text : List Char) (position : Position) :
    (Cursor.mk (before ++ text) position).pass before.length = ⟨text, position.after before⟩ := by
  simp only [pass, List.drop_left, List.take_left]

/-- The walk stops behind the first end of the comment. -/
theorem exists_first_of_closed {position : Position} {behind : Cursor}
    (closed : throughComment text position = .closed behind) :
    ∃ body rest, text = body ++ commentEnd ++ rest ∧
      (∀ start, commentEnd <+: text.drop start → body.length ≤ start) ∧
      behind = ⟨rest, position.after (body ++ commentEnd)⟩ := by
  have closes : closesComment text = true := (exists_closed_iff text position).mp ⟨behind, closed⟩
  obtain ⟨body, rest, rfl, first⟩ := exists_first_commentEnd (closesComment_iff.mp closes)
  rw [throughComment_of_first first, CommentStop.closed.injEq] at closed
  exact ⟨body, rest, rfl, fun start => length_le_of_first first, closed.symm⟩

/-- Counted from the opener, the first end starts behind its two characters. -/
theorem exists_first_of_opener {cursor behind : Cursor} (opens : cursor.rest = '/' :: '*' :: text)
    (closed : throughComment text (cursor.pass 2).position = .closed behind) :
    ∃ start, 2 ≤ start ∧ commentEnd <+: cursor.rest.drop start ∧
      (∀ other, 2 ≤ other → commentEnd <+: cursor.rest.drop other → start ≤ other) ∧
      behind = cursor.pass (start + 2) := by
  obtain ⟨body, rest, rfl, first, rfl⟩ := exists_first_of_closed closed
  refine ⟨body.length + 2, by omega, ?_, ?_, ?_⟩
  · rw [opens, List.append_assoc, List.drop_succ_cons, List.drop_succ_cons, List.drop_left]
    exact List.prefix_append commentEnd rest
  · intro other least found
    obtain ⟨start, rfl⟩ := Nat.exists_eq_add_of_le' least
    rw [opens] at found
    exact Nat.add_le_add_right (first start found) 2
  · have length : ('/' :: '*' :: (body ++ commentEnd)).length = body.length + 2 + 2 := by
      simp [commentEnd]
    have cut : cursor = ⟨('/' :: '*' :: (body ++ commentEnd)) ++ rest, cursor.position⟩ := by
      rw [List.cons_append, List.cons_append, ← opens]
    rw [cut, ← length, pass_append]
    rfl

/-- A comment with an end is walked through, and the gap goes on behind it. -/
theorem skipGap_of_closes {cursor : Cursor} (opens : cursor.rest = '/' :: '*' :: text)
    (closes : closesComment text = true) :
    cursor.skipGap = (throughComment text (cursor.pass 2).position).goOn := by
  rw [skipGap, pass, opens, behindGap, if_pos closes, behindGap_blockComment_eq]
  rfl

/-- Nothing is skipped at an opener without an end, and a slash is taken. -/
theorem next_of_unclosed {cursor : Cursor} (opens : cursor.rest = '/' :: '*' :: text)
    (unclosed : closesComment text = false) :
    cursor.next = .token ⟨.operator, "/", cursor.position⟩ (cursor.pass 1) := by
  have stays : cursor.skipGap = cursor := by
    rw [skipGap, opens, behindGap, if_neg (by simp [unclosed]), ← opens]
  have front : Front.ofText cursor.rest = .token .operator 1 := by
    rw [opens]
    rfl
  simp only [next, stays, front]
  rw [opens]
  rfl

end Cursor

/-! ## The parts of a gap -/

/-- The moves by which a gap is skipped, one for each way to go on. -/
inductive GapMove : GapPart × Cursor → GapPart × Cursor → Prop
  | opensLine {rest : List Char} {position : Position} :
      GapMove (.blanks, ⟨'/' :: '/' :: rest, position⟩)
        (.lineComment, ⟨rest, (position.next '/').next '/'⟩)
  | opensBlock {rest : List Char} {position : Position} (closes : closesComment rest = true) :
      GapMove (.blanks, ⟨'/' :: '*' :: rest, position⟩)
        (.blockComment, ⟨rest, (position.next '/').next '*'⟩)
  | blank {char : Char} {rest : List Char} {position : Position} (blank : isBlank char = true) :
      GapMove (.blanks, ⟨char :: rest, position⟩) (.blanks, ⟨rest, position.next char⟩)
  | endsLine {rest : List Char} {position : Position} :
      GapMove (.lineComment, ⟨'\n' :: rest, position⟩) (.blanks, ⟨rest, position.next '\n'⟩)
  | inLine {char : Char} {rest : List Char} {position : Position} (other : char ≠ '\n') :
      GapMove (.lineComment, ⟨char :: rest, position⟩) (.lineComment, ⟨rest, position.next char⟩)
  | endsBlock {rest : List Char} {position : Position} :
      GapMove (.blockComment, ⟨'*' :: '/' :: rest, position⟩)
        (.blanks, ⟨rest, (position.next '*').next '/'⟩)
  | inBlock {char : Char} {rest : List Char} {position : Position}
      (other : ¬ commentEnd <+: char :: rest) :
      GapMove (.blockComment, ⟨char :: rest, position⟩) (.blockComment, ⟨rest, position.next char⟩)

/-- Moves one after the other. -/
abbrev GapWalk : GapPart × Cursor → GapPart × Cursor → Prop :=
  Relation.ReflTransGen GapMove

/-- Skipping a gap is such a walk, up to where no move is left. -/
theorem Cursor.gapWalk_behindGap (part : GapPart) (text : List Char) (position : Position) :
    ∃ last, GapWalk (part, ⟨text, position⟩) (last, behindGap part text position) ∧
      ∀ next, ¬ GapMove (last, behindGap part text position) next := by
  fun_induction behindGap part text position with
  | case1 rest position ih =>
    obtain ⟨last, walk, stuck⟩ := ih
    exact ⟨last, .head .opensLine walk, stuck⟩
  | case2 rest position closes ih =>
    obtain ⟨last, walk, stuck⟩ := ih
    exact ⟨last, .head (.opensBlock closes) walk, stuck⟩
  | case3 rest position unclosed =>
    refine ⟨.blanks, .refl, ?_⟩
    intro next move
    cases move with
    | opensBlock closes => exact unclosed closes
    | blank blank => exact absurd blank (by decide)
  | case4 char rest position noLine noBlock blank ih =>
    obtain ⟨last, walk, stuck⟩ := ih
    exact ⟨last, .head (.blank blank) walk, stuck⟩
  | case5 char rest position noLine noBlock visible =>
    refine ⟨.blanks, .refl, ?_⟩
    intro next move
    cases move with
    | opensLine => exact noLine _ rfl rfl
    | opensBlock closes => exact noBlock _ rfl rfl
    | blank blank => exact visible blank
  | case6 rest position ih =>
    obtain ⟨last, walk, stuck⟩ := ih
    exact ⟨last, .head .endsLine walk, stuck⟩
  | case7 char rest position other ih =>
    obtain ⟨last, walk, stuck⟩ := ih
    exact ⟨last, .head (.inLine other) walk, stuck⟩
  | case8 rest position ih =>
    obtain ⟨last, walk, stuck⟩ := ih
    exact ⟨last, .head .endsBlock walk, stuck⟩
  | case9 char rest position other ih =>
    obtain ⟨last, walk, stuck⟩ := ih
    refine ⟨last, .head (.inBlock ?_) walk, stuck⟩
    rintro ⟨behind, same⟩
    cases same
    exact other behind rfl rfl
  | case10 part position =>
    refine ⟨part, .refl, ?_⟩
    intro next move
    cases move

/-- Inside a block comment its end is still ahead. -/
def EndAhead (state : GapPart × Cursor) : Prop :=
  state.1 = .blockComment → commentEnd <:+: state.2.rest

theorem GapMove.endAhead {state next : GapPart × Cursor} (move : GapMove state next)
    (h : EndAhead state) : EndAhead next := by
  cases move with
  | opensLine => simp [EndAhead]
  | opensBlock closes => exact fun _ => closesComment_iff.mp closes
  | blank => simp [EndAhead]
  | endsLine => simp [EndAhead]
  | inLine => simp [EndAhead]
  | endsBlock => simp [EndAhead]
  | inBlock other => exact fun _ => (List.infix_cons_iff.mp (h rfl)).resolve_left other

theorem GapWalk.endAhead {state last : GapPart × Cursor} (walk : GapWalk state last)
    (h : EndAhead state) : EndAhead last := by
  induction walk with
  | refl => exact h
  | tail _ move ih => exact move.endAhead ih

/-- While the end of a block comment is ahead, there is a move. -/
theorem GapMove.exists_of_ahead {place : Cursor} (ahead : commentEnd <:+: place.rest) :
    ∃ next, GapMove (.blockComment, place) next := by
  obtain ⟨text, position⟩ := place
  cases text with
  | nil => simp [commentEnd] at ahead
  | cons char rest =>
    by_cases atFront : commentEnd <+: char :: rest
    · obtain ⟨behind, same⟩ := atFront
      cases same
      exact ⟨_, .endsBlock⟩
    · exact ⟨_, .inBlock atFront⟩

/-- The look ahead for the end of a block comment agrees with the walk through the comment: it
    sees an end exactly if the walk stops behind one, and then it is the first one that starts
    behind the opener. Skipping a gap is therefore never inside a block comment without an end
    ahead, and does not stop there. An opener without an end is read as a slash. -/
theorem Cursor.closesComment_agrees (cursor : Cursor) :
    (∀ text, cursor.rest = '/' :: '*' :: text →
      behindGap .blockComment text (cursor.pass 2).position =
        (throughComment text (cursor.pass 2).position).goOn ∧
      (closesComment text = true ↔
        ∃ behind, throughComment text (cursor.pass 2).position = .closed behind) ∧
      (∀ behind, throughComment text (cursor.pass 2).position = .closed behind →
        cursor.skipGap = behind.skipGap ∧
        ∃ start, 2 ≤ start ∧ commentEnd <+: cursor.rest.drop start ∧
          (∀ other, 2 ≤ other → commentEnd <+: cursor.rest.drop other → start ≤ other) ∧
          behind = cursor.pass (start + 2)) ∧
      (closesComment text = false →
        cursor.next = .token ⟨.operator, "/", cursor.position⟩ (cursor.pass 1))) ∧
    (∀ place, GapWalk (.blanks, cursor) (.blockComment, place) → commentEnd <:+: place.rest) ∧
    ∃ last, last ≠ .blockComment ∧ GapWalk (.blanks, cursor) (last, cursor.skipGap) ∧
      ∀ next, ¬ GapMove (last, cursor.skipGap) next := by
  have ahead {last : GapPart} {place : Cursor} (walk : GapWalk (.blanks, cursor) (last, place)) :
      EndAhead (last, place) := walk.endAhead (by simp [EndAhead])
  refine ⟨?_, fun place walk => ahead walk rfl, ?_⟩
  · intro text opens
    refine ⟨behindGap_blockComment_eq text _, (exists_closed_iff text _).symm, ?_,
      next_of_unclosed opens⟩
    intro behind closed
    refine ⟨?_, ?_⟩
    · have closes := (exists_closed_iff text _).mp ⟨behind, closed⟩
      rw [skipGap_of_closes opens closes, closed]
      rfl
    · exact exists_first_of_opener opens closed
  · obtain ⟨last, walk, stuck⟩ := gapWalk_behindGap .blanks cursor.rest cursor.position
    refine ⟨last, ?_, walk, stuck⟩
    rintro rfl
    obtain ⟨next, move⟩ := GapMove.exists_of_ahead (ahead walk rfl)
    exact stuck next move

/-- The star of an opener is not that of the end, and `/*/` opens nothing. -/
theorem Cursor.closesComment_agrees_overlap :
    (∃ start, 2 ≤ start ∧ commentEnd <+: (ofText "/*/*/ x").rest.drop start ∧
      (∀ other, 2 ≤ other → commentEnd <+: (ofText "/*/*/ x").rest.drop other → start ≤ other) ∧
      ⟨[' ', 'x'], ⟨5, 1, 6⟩⟩ = (ofText "/*/*/ x").pass (start + 2)) ∧
    (ofText "/*/").next = .token ⟨.operator, "/", .start⟩ ((ofText "/*/").pass 1) := by
  have closed := (closesComment_agrees (ofText "/*/*/ x")).1 ['/', '*', '/', ' ', 'x'] (by decide)
  have unclosed := (closesComment_agrees (ofText "/*/")).1 ['/'] (by decide)
  exact ⟨(closed.2.2.1 _ (by decide)).2, unclosed.2.2.2 (by decide)⟩

end TinyScript
