import TinyScript.Text.Blank
import TinyScript.CompileError

/-!
# Scanning tokens

A cursor is a place in a text with the characters that follow it. Moving it to the next token skips
a gap (blanks and comments) and then takes the longest token that starts there. A slash with a star
behind it opens a comment only where the comment is closed later on; elsewhere both are operators.

The main fact of this module is `Cursor.next_rest_length_lt`: a token takes at least one character,
so that a text yields finitely many tokens.
-/

namespace TinyScript

/-- A place in a text and the characters from there on. -/
structure Cursor where
  rest : List Char
  position : Position
  deriving DecidableEq, Repr

/-- The part of a gap in which a character stands. -/
inductive GapPart where
  | blanks
  | lineComment
  | blockComment
  deriving DecidableEq, Repr

/-- Whether a comment whose opener stands before the text is closed in it. -/
def closesComment : List Char → Bool
  | '*' :: '/' :: _ => true
  | _ :: rest => closesComment rest
  | [] => false

/-- Whether a character may start a word. -/
def isWordStart (char : Char) : Bool :=
  char.isAlpha || char = '_'

/-- Whether a character may stand in a word behind its first one. -/
def isWordPart (char : Char) : Bool :=
  char.isAlphanum || char = '_'

/-- Whether a character opens a string. -/
def isQuote (char : Char) : Bool :=
  char = '"' || char = '\''

/-- What a text starts with, where no gap comes first. -/
inductive Front where
  | nothing
  | token (kind : TokenKind) (length : Nat)
  | openString (quote : Char)
  | stray (char : Char)
  deriving DecidableEq, Repr

/-- Looks for the longest token at the front of a text: a run of digits, a string up to the next
    quote of its sort, a word, or a single character. -/
def Front.ofText : List Char → Front
  | [] => .nothing
  | char :: rest =>
    if char.isDigit then .token .number (1 + (rest.takeWhile Char.isDigit).length)
    else if isQuote char then
      if char ∈ rest then .token .string (2 + (rest.takeWhile (· ≠ char)).length)
      else .openString char
    else if isWordStart char then
      let word := char :: rest.takeWhile isWordPart
      .token (TokenKind.ofWord (String.ofList word)) word.length
    else
      match TokenKind.symbol? char with
      | some kind => .token kind 1
      | none => .stray char

/-- The outcome of moving a cursor to the next token, with the cursor behind it. -/
inductive Step where
  | finish (cursor : Cursor)
  | fault (error : LexicalError) (cursor : Cursor)
  | token (token : Token) (cursor : Cursor)
  deriving DecidableEq, Repr

namespace Cursor

/-- The cursor at the start of a text. -/
def ofText (text : String) : Cursor :=
  ⟨text.toList, .start⟩

/-- The cursor some characters further on. -/
def pass (cursor : Cursor) (count : Nat) : Cursor :=
  ⟨cursor.rest.drop count, cursor.position.after (cursor.rest.take count)⟩

/-- The cursor behind the gap whose given part reaches up to the text. -/
def behindGap : GapPart → List Char → Position → Cursor
  | .blanks, '/' :: '/' :: rest, position =>
    behindGap .lineComment rest ((position.next '/').next '/')
  | .blanks, '/' :: '*' :: rest, position =>
    if closesComment rest then behindGap .blockComment rest ((position.next '/').next '*')
    else ⟨'/' :: '*' :: rest, position⟩
  | .blanks, char :: rest, position =>
    if isBlank char then behindGap .blanks rest (position.next char) else ⟨char :: rest, position⟩
  | .lineComment, '\n' :: rest, position => behindGap .blanks rest (position.next '\n')
  | .lineComment, char :: rest, position => behindGap .lineComment rest (position.next char)
  | .blockComment, '*' :: '/' :: rest, position =>
    behindGap .blanks rest ((position.next '*').next '/')
  | .blockComment, char :: rest, position => behindGap .blockComment rest (position.next char)
  | _, [], position => ⟨[], position⟩

/-- The cursor behind the blanks and comments that follow. -/
def skipGap (cursor : Cursor) : Cursor :=
  behindGap .blanks cursor.rest cursor.position

/-- Moves to the next token. A character that starts no token is not passed; an open string is
    passed to the end of the text. -/
def next (cursor : Cursor) : Step :=
  let cursor := cursor.skipGap
  match Front.ofText cursor.rest with
  | .nothing => .finish cursor
  | .token kind length =>
    .token ⟨kind, String.ofList (cursor.rest.take length), cursor.position⟩ (cursor.pass length)
  | .openString quote =>
    .fault (.openString quote cursor.position) (cursor.pass cursor.rest.length)
  | .stray char => .fault (.strayCharacter char cursor.position) cursor

theorem behindGap_rest_length_le (part : GapPart) (text : List Char) (position : Position) :
    (behindGap part text position).rest.length ≤ text.length := by
  fun_induction behindGap part text position <;> simp_all <;> omega

end Cursor

theorem Front.length_pos_of_token {text : List Char} {kind : TokenKind} {length : Nat}
    (h : Front.ofText text = .token kind length) : 0 < length ∧ text ≠ [] := by
  cases text with
  | nil => simp [Front.ofText] at h
  | cons char rest =>
    refine ⟨?_, by simp⟩
    simp only [Front.ofText] at h
    split at h
    · simp at h; omega
    · split at h
      · split at h
        · simp at h; omega
        · simp at h
      · split at h
        · simp at h; omega
        · split at h <;> simp at h; omega

theorem Cursor.next_rest_length_lt {cursor behind : Cursor} {token : Token}
    (h : cursor.next = .token token behind) : behind.rest.length < cursor.rest.length := by
  have hgap := Cursor.behindGap_rest_length_le .blanks cursor.rest cursor.position
  simp only [Cursor.next, Cursor.skipGap] at h
  split at h <;> simp at h
  next kind length hfront =>
    obtain ⟨hpos, hne⟩ := Front.length_pos_of_token hfront
    have := List.length_pos_iff.mpr hne
    rw [← h.2]
    simp only [Cursor.pass, List.length_drop]
    omega

/-- A token with the cursor behind it. -/
structure Lexeme where
  token : Token
  behind : Cursor
  deriving DecidableEq, Repr

/-- How the tokens of a text end, with the cursor there. -/
inductive Ending where
  | finish (cursor : Cursor)
  | fault (error : LexicalError) (cursor : Cursor)
  deriving DecidableEq, Repr

/-- The cursor where the tokens end. -/
def Ending.cursor : Ending → Cursor
  | finish cursor => cursor
  | fault _ cursor => cursor

/-- The tokens that follow a cursor, up to the end of the text or the first place where no token
    starts. -/
structure Feed where
  lexemes : List Lexeme
  ending : Ending
  deriving DecidableEq, Repr

/-- The tokens from a cursor on. -/
def Cursor.feed (cursor : Cursor) : Feed :=
  match _h : cursor.next with
  | .finish behind => ⟨[], .finish behind⟩
  | .fault error behind => ⟨[], .fault error behind⟩
  | .token token behind =>
    let more := behind.feed
    ⟨⟨token, behind⟩ :: more.lexemes, more.ending⟩
termination_by cursor.rest.length
decreasing_by exact Cursor.next_rest_length_lt ‹_›

/-- All tokens of a feed, or the fault that ends it. -/
def Feed.tokens (feed : Feed) : Except LexicalError (List Token) :=
  match feed.ending with
  | .finish _ => .ok (feed.lexemes.map Lexeme.token)
  | .fault error _ => .error error

/-- The tokens of a text. -/
def tokenize (text : String) : Except LexicalError (List Token) :=
  (Cursor.ofText text).feed.tokens

end TinyScript
