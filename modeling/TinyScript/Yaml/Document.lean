import TinyScript.Yaml.Scalar

/-!
# YAML documents

Documents of scalars, of lists and mappings in brackets, and of lists and mappings by indentation.
A key is a scalar on one line. Anchors, aliases, tags, directives, block scalars and keys after a
question mark are not read.
-/

namespace TinyScript.Yaml

/-! ## Values in brackets -/

/-- The value behind a colon in brackets; nothing at all stands for an empty one. -/
def flowValue (node : List Mark → Option (Yaml × List Mark)) (marks : List Mark) :
    Option (Yaml × List Mark) :=
  match skipFlowGap marks with
  | [] => none
  | mark :: rest =>
    if mark.char = ',' || mark.char = ']' || mark.char = '\x7d' then some (plain "", mark :: rest)
    else node (mark :: rest)

/-- A value in brackets that may be a key, the value that belongs to it, and what follows. -/
def flowPair (node : List Mark → Option (Yaml × List Mark)) (marks : List Mark) :
    Option (Yaml × Yaml × List Mark) := do
  let start ← marks.head?
  let (key, rest) ← node marks
  match skipFlowGap rest with
  | [] => none
  | mark :: rest =>
    if mark.char = ':' then
      if start.reaches mark then
        let (value, rest) ← flowValue node rest
        return (key, value, skipFlowGap rest)
      else none
    else return (key, plain "", mark :: rest)

/-- The entries of a mapping in braces, up to and with the closing one. -/
def flowEntries (node : List Mark → Option (Yaml × List Mark)) :
    Nat → List Mark → Option (List (String × Yaml) × List Mark)
  | 0, _ => none
  | bound + 1, marks => do
    let marks := skipFlowGap marks
    if (← marks.head?).char = '\x7d' then return ([], marks.tail)
    else
      let (key, value, rest) ← flowPair node marks
      let entry := (← key.scalar?, value)
      match (← rest.head?).char with
      | ',' =>
        let (entries, rest) ← flowEntries node bound rest.tail
        return (entry :: entries, rest)
      | '\x7d' => return ([entry], rest.tail)
      | _ => none

/-- What follows the items of a list in brackets. -/
def flowItems (node : List Mark → Option (Yaml × List Mark)) : Nat → List Mark → Option (List Mark)
  | 0, _ => none
  | bound + 1, marks => do
    let marks := skipFlowGap marks
    if (← marks.head?).char = ']' then return marks.tail
    else
      let (_, _, rest) ← flowPair node marks
      match (← rest.head?).char with
      | ',' => flowItems node bound rest.tail
      | ']' => return rest.tail
      | _ => none

/-- A value in brackets. The bound has to exceed the number of characters. -/
def flowNode (indent : Nat) : Nat → List Mark → Option (Yaml × List Mark)
  | 0, _ => none
  | bound + 1, marks => do
    if isAtBoundary marks then none
    else if startsQuoted marks then
      let (text, rest) ← quotedScalar marks
      return (quoted text, rest)
    else
      match (← marks.head?).char with
      | '[' =>
        let rest ← flowItems (flowNode indent bound) bound marks.tail
        return (list, rest)
      | '\x7b' =>
        let (entries, rest) ← flowEntries (flowNode indent bound) bound marks.tail
        return (mapping entries, rest)
      | _ =>
        let (text, _, rest) ← plainScalar true indent marks
        return (plain text, rest)

/-! ## Values by indentation -/

/-- A value, whether a key may start behind it, and what follows. -/
abbrev BlockResult := Option (Yaml × Bool × List Mark)

/-- A scalar or a value in brackets. -/
def leaf (bound indent : Nat) (marks : List Mark) : BlockResult := do
  if startsQuoted marks then
    let (text, rest) ← quotedScalar marks
    return (quoted text, false, rest)
  else if marks.head?.any fun mark => mark.char = '[' || mark.char = '\x7b' then
    let (value, rest) ← flowNode indent bound marks
    return (value, false, rest)
  else
    let (text, fresh, rest) ← plainScalar false indent marks
    return (plain text, fresh, rest)

/-- A scalar or a value in brackets, and what follows the colon behind it if there is one. Such a
    colon has to make it a key. -/
def leafOrKey (bound indent : Nat) (fresh : Bool) (marks : List Mark) :
    Option ((Yaml × Bool × List Mark) × Option (List Mark)) := do
  let start ← marks.head?
  let (value, freshBehind, rest) ← leaf bound indent marks
  match (skipGap false false freshBehind rest).2 with
  | mark :: behind =>
    if mark.char = ':' && endsWord behind then
      if fresh && start.reaches mark then return ((value, freshBehind, rest), some behind) else none
    else return ((value, freshBehind, rest), none)
  | [] => return ((value, freshBehind, rest), none)

/-- Whether an item of a list starts here. -/
def startsItem (marks : List Mark) : Bool :=
  marks.head?.any (·.char = '-') && endsWord marks.tail

/-- Whether nothing more belongs to a list or mapping with a given indentation. -/
def isBehindBlock (column : Nat) (marks : List Mark) : Bool :=
  isAtBoundary marks || marks.head?.all (·.column < column)

mutual

/-- A value that is indented by a given number of columns at least. A list or a mapping may start
    only where a key may. The bound has to exceed twice the number of characters. -/
def blockNode : Nat → Nat → Bool → List Mark → BlockResult
  | 0, _, _, _ => none
  | bound + 1, indent, fresh, marks => do
    let start ← marks.head?
    if startsItem marks then
      if fresh then blockItems bound start.column marks else none
    else
      match ← leafOrKey bound indent fresh marks with
      | (result, none) => return result
      | ((key, _, _), some rest) =>
        let (entries, fresh, rest) ← blockEntries bound start.column (← key.scalar?) rest
        return (mapping entries, fresh, rest)

/-- The value behind the colon of a key in a given column. -/
def blockValue : Nat → Nat → List Mark → BlockResult
  | 0, _, _ => none
  | bound + 1, column, marks =>
    match skipGap false false false marks with
    | (fresh, ahead) =>
      if isBehindBlock column ahead then some (plain "", fresh, ahead)
      else if ahead.head?.any (·.column = column) then
        if startsItem ahead then blockItems bound column ahead else some (plain "", fresh, ahead)
      else blockNode bound (column + 1) fresh ahead

/-- The entries of a mapping in a given column, from the colon of a key on. -/
def blockEntries : Nat → Nat → String → List Mark → Option (List (String × Yaml) × Bool × List Mark)
  | 0, _, _, _ => none
  | bound + 1, column, key, marks => do
    let (value, fresh, rest) ← blockValue bound column marks
    let (fresh, ahead) := skipGap false false fresh rest
    if isBehindBlock column ahead then return ([(key, value)], fresh, ahead)
    else if ahead.head?.any (·.column = column) then
      match ← leafOrKey bound (column + 1) fresh ahead with
      | ((next, _, _), some rest) =>
        let (entries, fresh, rest) ← blockEntries bound column (← next.scalar?) rest
        return ((key, value) :: entries, fresh, rest)
      | _ => none
    else none

/-- The items of a list in a given column, from a dash on. -/
def blockItems : Nat → Nat → List Mark → BlockResult
  | 0, _, _ => none
  | bound + 1, column, marks => do
    let (fresh, ahead) := skipGap false false true marks.tail
    let (_, fresh, rest) ←
      if isBehindBlock (column + 1) ahead then some (plain "", fresh, ahead)
      else blockNode bound (column + 1) true ahead
    let (fresh, ahead) := skipGap false false fresh rest
    if ahead.head?.any (·.column = column) && startsItem ahead then blockItems bound column ahead
    else return (list, fresh, ahead)

end

/-! ## Documents -/

/-- Whether nothing but marks of its end follows a document. -/
def isFinished : Nat → Bool → List Mark → Bool
  | 0, _, _ => false
  | bound + 1, fresh, marks =>
    let (_, ahead) := skipGap false false fresh marks
    ahead.isEmpty || (isAtTriple '.' ahead && isFinished bound false (ahead.drop 3))

/-- The value of a document that has one, or nothing where the text is no such document. -/
def document? (text : String) : Option (Option Yaml) := do
  let chars := text.toList
  let chars := if chars.head? = some byteOrderMark then chars.tail else chars
  if !chars.all allowedRanges.has then none
  else
    let bound := 2 * chars.length + 4
    match skipGap false false true (marksOf chars) with
    | (_, []) => return none
    | (fresh, ahead) =>
      let (fresh, ahead) :=
        if isAtTriple '-' ahead then skipGap false false false (ahead.drop 3) else (fresh, ahead)
      let (value, fresh, rest) ←
        if ahead.isEmpty || isAtBoundary ahead then some (plain "", fresh, ahead)
        else blockNode bound 0 fresh ahead
      if isFinished bound fresh rest then return some value else none

end TinyScript.Yaml
