import TinyScript.Proofs.Scanning

/-!
# Gaps

What stands between tokens is put together from runs of blanks, line comments and block comments. A
line comment reaches up to the next line feed or to the end of the text, and a block comment up to
the first star and slash behind its opener; an opener without them opens nothing. A text is free of
gaps if none of these stands at its front.

The cursor behind a gap is the one at the first place that is free of gaps, and every text has
exactly one gap at its front that leads to such a place.
-/

namespace TinyScript

/-- The end of a block comment. -/
def commentEnd : List Char := ['*', '/']

/-- A piece of a gap, with the text behind it. -/
inductive GapPiece : List Char → List Char → Prop
  | blanks {run rest : List Char} (nonempty : run ≠ []) (all : ∀ char ∈ run, isBlank char = true) :
      GapPiece run rest
  | lineComment {body rest : List Char} (inside : '\n' ∉ body)
      (ends : ∀ char ∈ rest.head?, char = '\n') : GapPiece ('/' :: '/' :: body) rest
  | blockComment {body rest : List Char} (first : ¬ commentEnd <:+: body) :
      GapPiece ('/' :: '*' :: (body ++ commentEnd)) rest

/-- A gap, with the text behind it. -/
inductive Gap : List Char → List Char → Prop
  | nil (rest : List Char) : Gap [] rest
  | cons {piece gap rest : List Char} (first : GapPiece piece (gap ++ rest)) (more : Gap gap rest) :
      Gap (piece ++ gap) rest

/-- A text at whose front no piece of a gap stands. -/
structure GapFree (text : List Char) : Prop where
  visible : ∀ char ∈ text.head?, isBlank char = false
  noLineComment : ¬ ['/', '/'] <+: text
  noBlockComment : ∀ rest, text = '/' :: '*' :: rest → ¬ commentEnd <:+: rest

/-! ## Comments -/

theorem closesComment_iff {text : List Char} :
    closesComment text = true ↔ commentEnd <:+: text := by
  fun_induction closesComment text with
  | case1 rest =>
    simp only [true_iff]
    exact ⟨[], rest, rfl⟩
  | case2 char rest other ih =>
    rw [ih, List.infix_cons_iff]
    constructor
    · exact Or.inr
    · rintro (atFront | inside)
      · -- Nothing but the two characters themselves starts with them.
        obtain ⟨behind, same⟩ := atFront
        cases same
        exact absurd rfl (other behind rfl)
      · exact inside
  | case3 => simp [commentEnd]

/-- A text that holds the end of a comment holds a first one. -/
theorem exists_first_commentEnd {text : List Char} (h : commentEnd <:+: text) :
    ∃ body rest, text = body ++ commentEnd ++ rest ∧ ¬ commentEnd <:+: body := by
  induction text with
  | nil => simp [commentEnd] at h
  | cons char text ih =>
    rcases List.infix_cons_iff.mp h with atFront | inside
    · obtain ⟨rest, same⟩ := atFront
      exact ⟨[], rest, same.symm, by simp [commentEnd]⟩
    · by_cases atFront : commentEnd <+: char :: text
      · obtain ⟨rest, same⟩ := atFront
        exact ⟨[], rest, same.symm, by simp [commentEnd]⟩
      · obtain ⟨body, rest, rfl, first⟩ := ih inside
        refine ⟨char :: body, rest, rfl, ?_⟩
        intro found
        rcases List.infix_cons_iff.mp found with early | later
        · apply atFront
          exact early.trans ⟨commentEnd ++ rest, by simp⟩
        · exact first later

/-- No end of a comment stands before the first one, not even with its last character behind it. -/
theorem not_commentEnd_of_first {char : Char} {body rest : List Char}
    (first : ¬ commentEnd <+: char :: body) :
    ¬ commentEnd <+: char :: (body ++ commentEnd ++ rest) := by
  rintro ⟨behind, same⟩
  obtain ⟨rfl, more⟩ := List.cons.inj same
  apply first
  cases body with
  | nil => cases more
  | cons next body =>
    obtain ⟨rfl, -⟩ := List.cons.inj more
    exact ⟨body, rfl⟩

/-- How a walk through a block comment stops: behind the end of the comment, or at that of the
    text. -/
inductive CommentStop where
  | closed (behind : Cursor)
  | ranOut (cursor : Cursor)
  deriving DecidableEq, Repr

/-- The cursor behind the gap in which a comment stands that has been walked through. -/
def CommentStop.goOn : CommentStop → Cursor
  | closed behind => behind.skipGap
  | ranOut cursor => cursor

namespace Cursor

/-- Walks through a block comment from behind its opener. -/
def throughComment : List Char → Position → CommentStop
  | '*' :: '/' :: rest, position => .closed ⟨rest, (position.next '*').next '/'⟩
  | char :: rest, position => throughComment rest (position.next char)
  | [], position => .ranOut ⟨[], position⟩

theorem behindGap_lineComment {body rest : List Char} (inside : '\n' ∉ body)
    (ends : ∀ char ∈ rest.head?, char = '\n') (position : Position) :
    behindGap .lineComment (body ++ rest) position =
      behindGap .blanks rest (position.after body) := by
  induction body generalizing position with
  | nil =>
    cases rest with
    | nil => rfl
    | cons char rest =>
      obtain rfl := ends char rfl
      rw [List.nil_append, Position.after_nil, behindGap_of_blank (by decide), behindGap]
  | cons char body ih =>
    rw [List.mem_cons, not_or] at inside
    rw [List.cons_append, behindGap, ih inside.2]
    · rfl
    · intro same
      exact inside.1 same.symm

theorem throughComment_of_first {body : List Char} (first : ¬ commentEnd <:+: body)
    (rest : List Char) (position : Position) :
    throughComment (body ++ commentEnd ++ rest) position =
      .closed ⟨rest, position.after (body ++ commentEnd)⟩ := by
  induction body generalizing position with
  | nil => rfl
  | cons char body ih =>
    rw [List.infix_cons_iff, not_or] at first
    rw [List.cons_append, List.cons_append, throughComment, ih first.2]
    · rfl
    · rintro behind rfl same
      exact not_commentEnd_of_first first.1 ⟨behind, congrArg ('*' :: ·) same.symm⟩

/-- Behind the end of a comment the gap goes on; without one the comment reaches up to the end. -/
theorem behindGap_blockComment_eq (text : List Char) (position : Position) :
    behindGap .blockComment text position = (throughComment text position).goOn := by
  fun_induction throughComment text position with
  | case1 rest position => rfl
  | case2 char rest position other ih =>
    rw [behindGap, ih]
    exact other
  | case3 position => rfl

theorem behindGap_blockComment {body : List Char} (first : ¬ commentEnd <:+: body)
    (rest : List Char) (position : Position) :
    behindGap .blockComment (body ++ commentEnd ++ rest) position =
      behindGap .blanks rest (position.after (body ++ commentEnd)) := by
  rw [behindGap_blockComment_eq, throughComment_of_first first]
  rfl

theorem behindGap_blanks {run : List Char} (all : ∀ char ∈ run, isBlank char = true)
    (rest : List Char) (position : Position) :
    behindGap .blanks (run ++ rest) position = behindGap .blanks rest (position.after run) := by
  induction run generalizing position with
  | nil => rfl
  | cons char run ih =>
    obtain ⟨blank, others⟩ := List.forall_mem_cons.mp all
    rw [List.cons_append, behindGap_of_blank blank, ih others]
    rfl

theorem behindGap_piece {piece rest : List Char} (h : GapPiece piece rest) (position : Position) :
    behindGap .blanks (piece ++ rest) position =
      behindGap .blanks rest (position.after piece) := by
  cases h with
  | blanks nonempty all => exact behindGap_blanks all rest position
  | lineComment inside ends =>
    rw [List.cons_append, List.cons_append, behindGap, behindGap_lineComment inside ends]
    rfl
  | @blockComment body _ first =>
    have closes : closesComment (body ++ commentEnd ++ rest) = true :=
      closesComment_iff.mpr ⟨body, rest, rfl⟩
    rw [List.cons_append, List.cons_append, behindGap, if_pos closes,
      behindGap_blockComment first]
    rfl

/-- Skipping a gap leads to the text behind it. -/
theorem behindGap_gap {gap rest : List Char} (h : Gap gap rest) (position : Position) :
    behindGap .blanks (gap ++ rest) position = behindGap .blanks rest (position.after gap) := by
  induction h generalizing position with
  | nil rest => rfl
  | cons first more ih =>
    rw [List.append_assoc, behindGap_piece first, ih, Position.after_append]

/-- Nothing is skipped where no gap stands. -/
theorem behindGap_of_gapFree {text : List Char} (free : GapFree text) (position : Position) :
    behindGap .blanks text position = ⟨text, position⟩ := by
  cases text with
  | nil => rfl
  | cons char rest =>
    by_cases opens : ∃ behind, char = '/' ∧ rest = '*' :: behind
    · -- An opener without an end is no comment.
      obtain ⟨behind, rfl, rfl⟩ := opens
      have unclosed : ¬ closesComment behind = true := by
        intro closes
        exact free.noBlockComment behind rfl (closesComment_iff.mp closes)
      rw [behindGap, if_neg unclosed]
    · rw [behindGap.eq_3, if_neg (by simp [free.visible char rfl])]
      · rintro behind rfl rfl
        exact free.noLineComment ⟨behind, rfl⟩
      · rintro behind rfl rfl
        exact opens ⟨behind, rfl, rfl⟩

end Cursor

/-! ## Every text starts with a gap -/

/-- A line comment reaches as far as there is no line feed. -/
theorem gapPiece_line (text : List Char) :
    GapPiece ('/' :: '/' :: text.takeWhile (· ≠ '\n')) (text.dropWhile (· ≠ '\n')) := by
  refine .lineComment ?_ ?_
  · intro member
    have all := List.all_eq_true.mp (List.all_takeWhile (p := (· ≠ '\n')) (l := text)) _ member
    simp at all
  · intro char member
    have stops := List.head?_dropWhile_not (· ≠ '\n') text
    rw [Option.mem_def.mp member] at stops
    simpa using stops

/-- A text that is not free of gaps starts with a piece of one. -/
theorem exists_piece_of_not_gapFree {text : List Char} (h : ¬ GapFree text) :
    ∃ piece rest, text = piece ++ rest ∧ piece ≠ [] ∧ GapPiece piece rest := by
  by_contra none
  apply h
  refine ⟨?_, ?_, ?_⟩
  · intro char member
    cases text with
    | nil => cases member
    | cons first rest =>
      cases member
      by_contra blank
      refine none ⟨[char], rest, rfl, by simp, .blanks (by simp) ?_⟩
      simpa using blank
  · rintro ⟨behind, rfl⟩
    have cut : behind = behind.takeWhile (· ≠ '\n') ++ behind.dropWhile (· ≠ '\n') :=
      List.takeWhile_append_dropWhile.symm
    exact none ⟨'/' :: '/' :: behind.takeWhile (· ≠ '\n'), _, congrArg (['/', '/'] ++ ·) cut,
      by simp, gapPiece_line behind⟩
  · rintro behind rfl closed
    obtain ⟨body, rest, rfl, first⟩ := exists_first_commentEnd closed
    exact none ⟨'/' :: '*' :: (body ++ commentEnd), rest, by simp, by simp, .blockComment first⟩

/-- Every text starts with a gap, maybe an empty one, that leads to a text free of gaps. -/
theorem exists_gap (text : List Char) :
    ∃ gap rest, text = gap ++ rest ∧ Gap gap rest ∧ GapFree rest := by
  induction length : text.length using Nat.strong_induction_on generalizing text with
  | _ count ih =>
    by_cases free : GapFree text
    · exact ⟨[], text, rfl, .nil text, free⟩
    · obtain ⟨piece, behind, rfl, nonempty, first⟩ := exists_piece_of_not_gapFree free
      have shorter : behind.length < count := by
        have := List.length_pos_iff.mpr nonempty
        rw [← length, List.length_append]
        omega
      obtain ⟨gap, rest, rfl, more, restFree⟩ := ih _ shorter behind rfl
      exact ⟨piece ++ gap, rest, by simp, .cons first more, restFree⟩

theorem Cursor.skipGap_gap {gap rest : List Char} (h : Gap gap rest) (free : GapFree rest)
    (position : Position) :
    (Cursor.mk (gap ++ rest) position).skipGap = ⟨rest, position.after gap⟩ := by
  rw [Cursor.skipGap, Cursor.behindGap_gap h, Cursor.behindGap_of_gapFree free]

end TinyScript
