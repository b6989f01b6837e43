import TinyScript.Text.Blank
import TinyScript.Yaml

/-!
# Characters of a YAML document

The characters of a document with their places, the gaps between its tokens, and the marks at which
it starts and ends.
-/

namespace TinyScript.Yaml

/-- The characters that may stand in a document. -/
def allowedRanges : CodeRanges :=
  [(0x09, 0x0A), (0x0D, 0x0D), (0x20, 0x7E), (0x85, 0x85), (0xA0, 0xD7FF), (0xE000, 0xFFFD),
    (0x10000, 0x10FFFF)]

/-- A character of a document with the place where it stands. The offset counts bytes, the column
    characters. -/
structure Mark where
  char : Char
  offset : Nat
  line : Nat
  column : Nat

/-- Whether a character stands between words of a line. -/
def isGap (char : Char) : Bool :=
  char = ' ' || char = '\t'

/-- Whether a character ends a line. -/
def isBreak (char : Char) : Bool :=
  char = '\n' || char = '\u2028' || char = '\u2029'

/-- The mark that may start a line and is passed over. -/
def byteOrderMark : Char := '\ufeff'

/-- The characters of a text, from a place on. A carriage return, alone or before a line feed, and a
    next-line character end a line as a line feed does. -/
def marksFrom (offset line column : Nat) : List Char → List Mark
  | [] => []
  | '\r' :: '\n' :: rest =>
    ⟨'\n', offset, line, column⟩ :: marksFrom (offset + 2) (line + 1) 0 rest
  | char :: rest =>
    let next := offset + char.utf8Size
    let char := if char = '\r' || char = '\x85' then '\n' else char
    ⟨char, offset, line, column⟩ ::
      if isBreak char then marksFrom next (line + 1) 0 rest
      else marksFrom next line (column + 1) rest

/-- The characters of a document. -/
def marksOf (text : List Char) : List Mark :=
  marksFrom 0 0 0 text

/-- Whether a word ends here: at a gap, at the end of a line, or at the end of the document. -/
def endsWord (marks : List Mark) : Bool :=
  marks.head?.all fun mark => isGap mark.char || isBreak mark.char

/-- Whether a line starts here with a word of three times the same character. -/
def isAtTriple (char : Char) (marks : List Mark) : Bool :=
  marks.head?.any (·.column = 0) && (marks.take 3).map (·.char) = [char, char, char] &&
    endsWord (marks.drop 3)

/-- Whether a document starts or ends here. -/
def isAtBoundary (marks : List Mark) : Bool :=
  isAtTriple '-' marks || isAtTriple '.' marks

/-- Passes over blanks, comments and ends of lines. The result says also whether a key may start
    at the next token: it may if it could before, or if a line has ended. Where a key may start, a
    tab is no blank. In brackets tabs are always blanks. -/
def skipGap (inFlow inComment fresh : Bool) : List Mark → Bool × List Mark
  | [] => (fresh, [])
  | mark :: rest =>
    if isBreak mark.char then skipGap inFlow false (fresh || !inFlow) rest
    else if inComment then skipGap inFlow true fresh rest
    else if mark.char = '#' then skipGap inFlow true fresh rest
    else if mark.char = ' ' || (mark.char = '\t' && (inFlow || !fresh)) then
      skipGap inFlow false fresh rest
    else if mark.char = byteOrderMark && mark.column = 0 then skipGap inFlow false fresh rest
    else (fresh, mark :: rest)

/-- The next token in brackets. -/
def skipFlowGap (marks : List Mark) : List Mark :=
  (skipGap true false false marks).2

/-- How many bytes behind the start of a key its colon may stand. -/
def keyReach : Nat := 1024

/-- Whether a colon can belong to the key that starts at a mark: it has to be on the same line, and
    near enough. -/
def Mark.reaches (start colon : Mark) : Bool :=
  start.line = colon.line && colon.offset ≤ start.offset + keyReach

end TinyScript.Yaml
