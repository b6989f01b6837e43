import TinyScript.Text.Hex
import TinyScript.Yaml.Mark

/-!
# YAML scalars

Plain and quoted scalars. A scalar may go on over several lines: one end of a line is then read as a
blank, and of more than one the first is dropped. Line and paragraph separators are kept.
-/

namespace TinyScript.Yaml

/-! ## Gaps in scalars -/

/-- What stands between two words of a scalar: blanks, or ends of lines. The blanks around ends of
    lines are dropped, and so is a first end of a line that is escaped. -/
inductive Gap where
  | blanks (reversed : List Char)
  | breaks (first : Option Char) (reversed : List Char)

namespace Gap

/-- A gap with one more blank. -/
def addBlank (char : Char) : Gap → Gap
  | blanks reversed => blanks (char :: reversed)
  | gap => gap

/-- A gap with one more end of a line. -/
def addBreak (char : Char) : Gap → Gap
  | blanks _ => breaks (some char) []
  | breaks first reversed => breaks first (char :: reversed)

/-- How a gap is read. -/
def text : Gap → List Char
  | blanks reversed => reversed.reverse
  | breaks (some '\n') [] => [' ']
  | breaks (some '\n') reversed => reversed.reverse
  | breaks first reversed => first.toList ++ reversed.reverse

/-- Whether a line ends in a gap. -/
def isBroken : Gap → Bool
  | blanks _ => false
  | breaks .. => true

end Gap

/-- The gap with which reading goes on behind a word. -/
def noGap : Gap := .blanks []

/-! ## Quoted scalars -/

/-- The character that an escape of one letter denotes. -/
def escaped? : Char → Option Char
  | '0' => some '\x00'
  | 'a' => some '\x07'
  | 'b' => some '\x08'
  | 't' => some '\t'
  | '\t' => some '\t'
  | 'n' => some '\n'
  | 'v' => some '\x0b'
  | 'f' => some '\x0c'
  | 'r' => some '\r'
  | 'e' => some '\x1b'
  | ' ' => some ' '
  | '"' => some '"'
  | '/' => some '/'
  | '\\' => some '\\'
  | 'N' => some '\x85'
  | '_' => some '\xa0'
  | 'L' => some '\u2028'
  | 'P' => some '\u2029'
  | _ => none

/-- How many hexadecimal digits an escape has. -/
def hexWidth? : Char → Option Nat
  | 'x' => some 2
  | 'u' => some 4
  | 'U' => some 8
  | _ => none

/-- The character that an escape denotes, and how many characters it takes behind its backslash. -/
def escape? (marks : List Mark) : Option (Char × Nat) := do
  let letter ← marks.head?
  match hexWidth? letter.char with
  | none => return (← escaped? letter.char, 1)
  | some width =>
    let digits := (marks.tail.take width).map (·.char)
    let code ← hexValue? digits
    if digits.length = width && code.isValidChar then return (Char.ofNat code, 1 + width)
    else none

/-- What a backslash in double quotes and the characters behind it give: a character or the start
    of a gap, and how many characters belong to the escape. -/
def backslash? (marks : List Mark) : Option (List Char × Gap × Nat) := do
  let next ← marks.head?
  if isBreak next.char then return ([], .breaks none [], 1)
  else
    let (char, width) ← escape? marks
    return ([char], noGap, width)

/-- The text of a scalar in quotes, behind its first quote, and what follows it. In single quotes a
    quote is written twice, in double quotes a backslash starts an escape. The number says how many
    characters are to be passed over because they belong to an escape. -/
def quotedWords (quote : Char) (passed : Nat) (gap : Gap) :
    List Mark → Option (List Char × List Mark)
  | [] => none
  | mark :: rest =>
    match passed with
    | passed + 1 => quotedWords quote passed gap rest
    | 0 =>
      if isGap mark.char then quotedWords quote 0 (gap.addBlank mark.char) rest
      else if isBreak mark.char then quotedWords quote 0 (gap.addBreak mark.char) rest
      else if isAtBoundary (mark :: rest) then none
      else if mark.char = quote then
        if quote = '\'' && rest.head?.any (·.char = quote) then
          (quotedWords quote 1 noGap rest).map fun (text, rest) => (gap.text ++ quote :: text, rest)
        else some (gap.text, rest)
      else if quote = '"' && mark.char = '\\' then do
        let (chars, next, width) ← backslash? rest
        let (text, rest) ← quotedWords quote width next rest
        return (gap.text ++ chars ++ text, rest)
      else
        (quotedWords quote 0 noGap rest).map fun (text, rest) =>
          (gap.text ++ mark.char :: text, rest)

/-- A quoted scalar and what follows it. -/
def quotedScalar : List Mark → Option (String × List Mark)
  | [] => none
  | mark :: rest =>
    if mark.char = '"' || mark.char = '\'' then
      (quotedWords mark.char 0 noGap rest).map fun (text, rest) => (String.ofList text, rest)
    else none

/-- Whether a scalar in quotes starts here. -/
def startsQuoted (marks : List Mark) : Bool :=
  marks.head?.any fun mark => mark.char = '"' || mark.char = '\''

/-! ## Plain scalars -/

/-- The characters with a meaning in brackets. -/
def isFlowMark (char : Char) : Bool :=
  char = ',' || char = '[' || char = ']' || char = '\x7b' || char = '\x7d'

/-- Whether a plain scalar may start here, in brackets or outside of them. -/
def startsPlain (inFlow : Bool) : List Mark → Bool
  | [] => false
  | mark :: rest =>
    if mark.char = '-' then !endsWord rest
    else if mark.char = '?' || mark.char = ':' then !inFlow && !endsWord rest
    else
      !isGap mark.char && !isBreak mark.char && !isFlowMark mark.char &&
        !"#&*!|>'\"%@`".toList.contains mark.char

/-- Whether a plain scalar ends before a character: at a colon at the end of a word, and in brackets
    at a character with a meaning there. -/
def endsPlain (inFlow : Bool) (char : Char) (rest : List Mark) : Bool :=
  (char = ':' && endsWord rest) || (inFlow && isFlowMark char)

/-- Whether a colon stands where it may not: in brackets, directly before a character with a meaning
    there. -/
def isMisplacedColon (inFlow : Bool) (char : Char) (rest : List Mark) : Bool :=
  inFlow && char = ':' && rest.head?.any fun next => isFlowMark next.char || next.char = '?'

/-- Whether a plain scalar ends at a gap because of what follows: a boundary of the document, a
    comment, or, outside of brackets, a line that is not indented enough. -/
def endsAtGap (inFlow : Bool) (indent : Nat) (gap : Gap) (mark : Mark) (rest : List Mark) : Bool :=
  match gap with
  | .blanks [] => false
  | _ => (!inFlow && mark.column < indent) || isAtBoundary (mark :: rest) || mark.char = '#'

/-- The text of a plain scalar behind a gap, whether a line has ended behind its last word, and what
    follows. A tab may not stand where a line has to be indented. -/
def plainWords (inFlow : Bool) (indent : Nat) (gap : Gap) :
    List Mark → Option (List Char × Bool × List Mark)
  | [] => some ([], gap.isBroken, [])
  | mark :: rest =>
    if isGap mark.char then
      if gap.isBroken && mark.char = '\t' && mark.column < indent then none
      else plainWords inFlow indent (gap.addBlank mark.char) rest
    else if isBreak mark.char then plainWords inFlow indent (gap.addBreak mark.char) rest
    else if endsAtGap inFlow indent gap mark rest then some ([], gap.isBroken, mark :: rest)
    else if isMisplacedColon inFlow mark.char rest then none
    else if endsPlain inFlow mark.char rest then some ([], gap.isBroken, mark :: rest)
    else
      (plainWords inFlow indent noGap rest).map fun (text, fresh, rest) =>
        (gap.text ++ mark.char :: text, fresh, rest)

/-- A plain scalar, whether a line has ended behind its last word, and what follows. -/
def plainScalar (inFlow : Bool) (indent : Nat) (marks : List Mark) :
    Option (String × Bool × List Mark) :=
  if startsPlain inFlow marks then
    (plainWords inFlow indent noGap marks).map fun (text, fresh, rest) =>
      (String.ofList text, fresh, rest)
  else none

end TinyScript.Yaml
