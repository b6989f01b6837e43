import TinyScript.Proofs.ScanningInPlace

/-!
# Reading in place

A program can be read from an array of characters with one token of lookahead: a token is taken, and
only then is the one behind it looked for. The quotes of a string are cut off by bytes, which needs
two places between characters. Neither the nesting of a program nor its rows of statements, operands
and parameters may go beyond a limit; otherwise there is no outcome.
-/

namespace TinyScript

/-! ## Bytes -/

/-- The text between two byte offsets, which have to lie in this order between characters. -/
def sliceBytes? (text : String) (first last : Nat) : Option String :=
  if valid : String.Pos.Raw.IsValid text ⟨first⟩ ∧ String.Pos.Raw.IsValid text ⟨last⟩ ∧
      first ≤ last then
    some (text.extract (text.pos ⟨first⟩ valid.1) (text.pos ⟨last⟩ valid.2.1))
  else none

theorem isValid_of_sliceBytes? {text content : String} {first last : Nat}
    (h : sliceBytes? text first last = some content) :
    String.Pos.Raw.IsValid text ⟨first⟩ ∧ String.Pos.Raw.IsValid text ⟨last⟩ ∧ first ≤ last := by
  by_contra invalid
  rw [sliceBytes?, dif_neg invalid] at h
  cases h

theorem sliceBytes?_append (before content behind : String) :
    sliceBytes? (before ++ content ++ behind) before.utf8ByteSize
      (before.utf8ByteSize + content.utf8ByteSize) = some content := by
  have first : String.Pos.Raw.IsValid (before ++ content ++ behind) ⟨before.utf8ByteSize⟩ :=
    String.Pos.Raw.isValid_iff_exists_append.mpr
      ⟨before, content ++ behind, String.append_assoc, rfl⟩
  have last : String.Pos.Raw.IsValid (before ++ content ++ behind)
      ⟨before.utf8ByteSize + content.utf8ByteSize⟩ :=
    String.Pos.Raw.isValid_iff_exists_append.mpr
      ⟨before ++ content, behind, rfl, by ext; simp⟩
  rw [sliceBytes?, dif_pos ⟨first, last, Nat.le_add_right _ _⟩, Option.some_inj,
    ← String.toByteArray_inj]
  simp only [String.toByteArray_extract, String.offset_pos, String.toByteArray_append]
  rw [ByteArray.append_assoc]
  exact (ByteArray.extract_append_size_add (i := 0)).trans (ByteArray.extract_append_eq_left rfl)

theorem utf8ByteSize_quote {quote : Char} (h : isQuote quote = true) :
    (String.singleton quote).utf8ByteSize = 1 := by
  simp only [isQuote, Bool.or_eq_true, decide_eq_true_eq] at h
  rcases h with rfl | rfl
  · decide
  · decide

/-- A text in quotes is cut between characters, one byte from each of its ends. -/
theorem sliceBytes?_quoted {quote : Char} (h : isQuote quote = true) (content : List Char) :
    sliceBytes? (String.ofList (quote :: (content ++ [quote]))) 1
      ((String.ofList (quote :: (content ++ [quote]))).utf8ByteSize - 1) =
        some (String.ofList content) := by
  have split : String.ofList (quote :: (content ++ [quote])) =
      String.singleton quote ++ String.ofList content ++ String.singleton quote := by
    simp [← String.toList_inj]
  have cut := sliceBytes?_append (String.singleton quote) (String.ofList content)
    (String.singleton quote)
  rw [split]
  simp only [String.utf8ByteSize_append, utf8ByteSize_quote h] at cut ⊢
  rwa [Nat.add_sub_cancel]

/-- The quotes that enclose a string are one character at each of its ends, which does not occur in
    between and has one byte. -/
theorem exists_quoted_of_spells {text : String} (spells : Spells .string text.toList) :
    ∃ quote content, isQuote quote = true ∧ quote ∉ content ∧
      text = String.ofList (quote :: (content ++ [quote])) ∧
      2 ≤ text.utf8ByteSize ∧
      String.Pos.Raw.IsValid text ⟨1⟩ ∧
      String.Pos.Raw.IsValid text ⟨text.utf8ByteSize - 1⟩ ∧
      sliceBytes? text 1 (text.utf8ByteSize - 1) = some (String.ofList content) := by
  obtain ⟨quote, content, isQuote, free, same⟩ := spells.exists_quoted rfl
  obtain rfl : text = String.ofList (quote :: (content ++ [quote])) := by
    rw [← same, String.ofList_toList]
  have cut := sliceBytes?_quoted isQuote content
  obtain ⟨first, last, ordered⟩ := isValid_of_sliceBytes? cut
  exact ⟨quote, content, isQuote, free, rfl, by omega, first, last, cut⟩

/-! ## Readers in place -/

/-- A text that is read in place: the place behind the lookahead, and the lookahead. -/
structure OpenReading where
  place : ArrayCursor
  lookahead : Option Token

/-- Readers in place. -/
abbrev PlaceReader := Refusable ParseError OpenReading

namespace PlaceReader

/-- Moves the lookahead on to the next token. -/
def pull : PlaceReader Unit := do
  let reading ← get
  match ← ArrayCursor.next reading.place with
  | (.ok found, place) => set (OpenReading.mk place found)
  | (.error error, place) =>
    set { reading with place }
    throw (.lexical error)

/-- The lookahead, if the input has not ended. -/
def peek : PlaceReader (Option Token) := do
  return (← get).lookahead

/-- Fails at the lookahead. -/
def unexpected {α : Type} (expected : Expected) : PlaceReader α := do
  let reading ← get
  let position := (reading.lookahead.map Token.start).getD reading.place.position
  throw (.grammatical (.unexpected expected reading.lookahead position))

/-- Passes the lookahead, which has to be of the given kind. -/
def eat (kind : TokenKind) : PlaceReader Token := do
  match ← peek with
  | some token =>
    if token.kind = kind then
      modify fun reading => { reading with lookahead := none }
      pull
      return token
    else unexpected (.token kind)
  | none => unexpected (.token kind)

/-- Whether the lookahead is of the given kind. -/
def check (kind : TokenKind) : PlaceReader Bool := do
  return (← peek).any (·.kind = kind)

/-- The lookahead as one of the given operators. -/
def operator? (operators : List Operator) : PlaceReader (Option Operator) := do
  match ← peek with
  | some token =>
    if token.kind = .operator then
      return (Operator.ofSymbol? token.text).filter (operators.contains ·)
    else return none
  | none => return none

/-- A literal or an identifier. The quotes of a string are cut off its bytes. -/
def literal : PlaceReader Expression := do
  match (← peek).map Token.kind with
  | some .number =>
    let token ← eat .number
    match Binary64.ofDigits? token.text.toList with
    | some value => return .number value
    | none => throw (.grammatical (.numberTooLarge token.text token.start))
  | some .string =>
    let token ← eat .string
    return .string (← sliceBytes? token.text 1 (token.text.utf8ByteSize - 1))
  | some .identifier => return .identifier (← eat .identifier).text
  | _ => unexpected .operand

/-- Further operands joined to an expression, grouped to the left. -/
def operations (operators : List Operator) (operand : PlaceReader Expression) :
    Nat → Expression → PlaceReader Expression
  | 0, _ => Refusable.stuck
  | rounds + 1, left => do
    match ← operator? operators with
    | some operator =>
      discard <| eat .operator
      operations operators operand rounds (.binary operator left (← operand))
    | none => return left

/-- Operands joined by the given operators. -/
def chain (limit : Nat) (operators : List Operator) (operand : PlaceReader Expression) :
    PlaceReader Expression := do
  operations operators operand limit (← operand)

/-- A literal, or an inner expression in parentheses. -/
def factor (inner : PlaceReader Expression) : PlaceReader Expression := do
  if ← check .lParen then
    discard <| eat .lParen
    let expression ← inner
    discard <| eat .rParen
    return expression
  else literal

/-- An expression that is nested less deep than the limit. -/
def expression : Nat → PlaceReader Expression
  | 0 => Refusable.stuck
  | limit + 1 =>
    chain limit [.add, .sub] (chain limit [.mul, .div] (factor (expression limit)))

/-- A declaration of a variable. -/
def variableDeclaration (limit : Nat) : PlaceReader Statement := do
  discard <| eat .varKeyword
  let name ← eat .identifier
  discard <| eat .colon
  let typeName ← eat .typeKeyword
  discard <| eat .assign
  let value ← expression limit
  discard <| eat .semicolon
  return .variableDeclaration name.text typeName.text value

/-- A parameter of a function. -/
def parameter : PlaceReader Parameter := do
  let name ← eat .identifier
  discard <| eat .colon
  let typeName ← eat .typeKeyword
  return ⟨name.text, typeName.text⟩

/-- Further parameters, each behind a comma. -/
def moreParameters : Nat → PlaceReader (List Parameter)
  | 0 => Refusable.stuck
  | rounds + 1 => do
    if ← check .comma then
      discard <| eat .comma
      let first ← parameter
      let more ← moreParameters rounds
      return first :: more
    else return []

/-- The parameters of a function in their parentheses. -/
def parameters (limit : Nat) : PlaceReader (List Parameter) := do
  discard <| eat .lParen
  if ← check .rParen then
    discard <| eat .rParen
    return []
  else
    let first ← parameter
    let more ← moreParameters limit
    discard <| eat .rParen
    return first :: more

/-- Statements up to a closing brace, which is not passed. -/
def statementsToBrace (owner : String) (statement : PlaceReader Statement) :
    Nat → PlaceReader (List Statement)
  | 0 => Refusable.stuck
  | rounds + 1 => do
    match ← peek with
    | some token =>
      if token.kind = .rBrace then return []
      else
        let first ← statement
        let more ← statementsToBrace owner statement rounds
        return first :: more
    | none => unexpected (.bodyEnd owner)

/-- The body of the function with the given name. -/
def block (limit : Nat) (owner : String) (statement : PlaceReader Statement) :
    PlaceReader (List Statement) := do
  discard <| eat .lBrace
  let body ← statementsToBrace owner statement limit
  discard <| eat .rBrace
  return body

/-- A declaration of a function, given a reader for the statements of its body. -/
def functionDeclaration (limit : Nat) (statement : PlaceReader Statement) :
    PlaceReader Statement := do
  discard <| eat .functionKeyword
  let name ← eat .identifier
  let parameters ← parameters limit
  discard <| eat .colon
  let returnType ← eat .typeKeyword
  let body ← block limit name.text statement
  return .functionDeclaration name.text parameters returnType.text body

/-- A return from a function. -/
def returnStatement (limit : Nat) : PlaceReader Statement := do
  discard <| eat .returnKeyword
  if ← check .semicolon then
    discard <| eat .semicolon
    return .returnStatement none
  else
    let argument ← expression limit
    discard <| eat .semicolon
    return .returnStatement (some argument)

/-- A statement that is nested less deep than the limit. -/
def statement : Nat → PlaceReader Statement
  | 0 => Refusable.stuck
  | limit + 1 => do
    match (← peek).map Token.kind with
    | some .varKeyword => variableDeclaration limit
    | some .functionKeyword => functionDeclaration limit (statement limit)
    | some .returnKeyword => returnStatement limit
    | _ => unexpected .statement

/-- Statements up to the end of the input. -/
def statementsToEnd (statement : PlaceReader Statement) : Nat → PlaceReader (List Statement)
  | 0 => Refusable.stuck
  | rounds + 1 => do
    match ← peek with
    | some _ =>
      let first ← statement
      let more ← statementsToEnd statement rounds
      return first :: more
    | none => return []

/-- A whole program. Neither its nesting nor its loops go beyond the rounds that its text has. -/
def program : PlaceReader Program := do
  pull
  let limit := (← get).place.rounds
  return ⟨← statementsToEnd (statement limit) limit⟩

end PlaceReader

end TinyScript
