import TinyScript.Proofs.ReadersInStep

/-!
# Requests in place

A text can be asked for its next token, for all its further tokens and for a program, and another
text can be put in its place, in any order and again and again. One request in place is answered as
a scanner answers it and leaves the place that the scanner is at; so are all requests one after the
other. As an access out of range has no answer, there is none.
-/

namespace TinyScript

/-- What can be asked of a text: tokens, or a program. -/
inductive TextRequest where
  | scan (request : Scanner.Request)
  | parse

/-- What is answered to a request. -/
inductive TextAnswer where
  | scanned (answer : Scanner.Answer)
  | parsed (answer : Except ParseError Program)

namespace Scanner

/-- The answer to a request, and the scanner behind it. -/
def serve (scanner : Scanner) : TextRequest → TextAnswer × Scanner
  | .scan request => (.scanned (scanner.ask request).1, (scanner.ask request).2)
  | .parse => (.parsed scanner.cursor.parse.1, { scanner with cursor := scanner.cursor.parse.2 })

/-- The answers to requests one after the other, each with the scanner behind it. -/
def serveAll (scanner : Scanner) : List TextRequest → List (TextAnswer × Scanner)
  | [] => []
  | request :: requests =>
    scanner.serve request :: (scanner.serve request).2.serveAll requests

/-- The array and the place in it that a scanner stands for. -/
def place (scanner : Scanner) : ArrayCursor :=
  ⟨scanner.text.toList.toArray, scanner.cursor.position⟩

theorem Exact.serve {scanner : Scanner} (exact : scanner.Exact) (request : TextRequest) :
    (scanner.serve request).2.Exact := by
  cases request with
  | scan request => exact (exact.ask request).1
  | parse => exact (Cursor.IsIn.parse exact).1

end Scanner

namespace OpenReading

/-- A reading at the start of a text, without a lookahead. -/
def ofText (text : String) : OpenReading :=
  ⟨⟨text.toList.toArray, .start⟩, none⟩

/-- The answer to a request in place. A lookahead is left as it is by requests for tokens. -/
def serve (reading : OpenReading) : TextRequest → Option (TextAnswer × OpenReading)
  | .scan .next => do
    let (answer, place) ← ArrayCursor.next reading.place
    return (.scanned (.token answer), { reading with place })
  | .scan .tokenize => do
    let (answer, place) ← ArrayCursor.tokens reading.place
    return (.scanned (.tokens answer), { reading with place })
  | .scan (.init text) =>
    return (.scanned .started, { reading with place := ⟨text.toList.toArray, .start⟩ })
  | .parse => do
    let (answer, reading) ← PlaceReader.program reading
    return (.parsed answer, reading)

/-- The answers to requests one after the other in place, each with the place behind it. -/
def serveAll (reading : OpenReading) : List TextRequest → Option (List (TextAnswer × ArrayCursor))
  | [] => return []
  | request :: requests => do
    let (answer, reading) ← reading.serve request
    return (answer, reading.place) :: (← reading.serveAll requests)

/-- One request in place is answered as the scanner answers it, and leaves the same place. -/
theorem serve_eq {scanner : Scanner} (exact : scanner.Exact) {reading : OpenReading}
    (same : reading.place = scanner.place) (request : TextRequest) :
    ∃ behind, reading.serve request = some ((scanner.serve request).1, behind) ∧
      behind.place = (scanner.serve request).2.place := by
  obtain ⟨place, lookahead⟩ := reading
  obtain rfl : place = scanner.place := same
  cases request with
  | parse =>
    obtain ⟨last, read⟩ := PlaceReader.program_eq exact lookahead
    refine ⟨⟨⟨scanner.text.toList.toArray, scanner.cursor.parse.2.position⟩, last⟩, ?_, rfl⟩
    rw [serve, Scanner.place, read]
    rfl
  | scan request =>
    cases request with
    | init text => exact ⟨_, rfl, rfl⟩
    | tokenize =>
      refine ⟨⟨⟨scanner.text.toList.toArray, scanner.cursor.feed.ending.cursor.position⟩,
        lookahead⟩, ?_, rfl⟩
      rw [serve, Scanner.place, ArrayCursor.tokens_eq exact]
      rfl
    | next =>
      have answer : scanner.serve (.scan .next) =
          (.scanned (.token scanner.cursor.next.answer),
            { scanner with cursor := scanner.cursor.next.cursor }) := by
        rw [Scanner.serve, Scanner.ask]
        cases scanner.cursor.next <;> rfl
      refine ⟨⟨⟨scanner.text.toList.toArray, scanner.cursor.next.cursor.position⟩, lookahead⟩,
        ?_, ?_⟩
      · rw [serve, Scanner.place, ArrayCursor.next_eq exact, answer]
        rfl
      · rw [answer]
        rfl

/-- Requests in place are answered as the scanner answers them, one after the other. -/
theorem serveAll_eq {scanner : Scanner} (exact : scanner.Exact) {reading : OpenReading}
    (same : reading.place = scanner.place) (requests : List TextRequest) :
    reading.serveAll requests =
      some ((scanner.serveAll requests).map (Prod.map id Scanner.place)) := by
  induction requests generalizing scanner reading with
  | nil => rfl
  | cons request requests ih =>
    obtain ⟨behind, answered, place⟩ := serve_eq exact same request
    have others := ih (exact.serve request) place
    rw [serveAll, answered]
    change (behind.serveAll requests).bind _ = _
    rw [others, place]
    rfl

end OpenReading

/-- Whatever is asked of a text in place, tokens or programs, every request is answered, and as the
    scanner answers it: no access to the characters is out of range, and no cut of a string is. The
    cut takes the same quote from both ends of any string, and this quote does not occur in
    between. -/
theorem accesses_are_in_range (source : String) :
    (∀ requests, (OpenReading.ofText source).serveAll requests =
      some (((Scanner.ofText source).serveAll requests).map (Prod.map id Scanner.place))) ∧
    (∀ (cursor : Cursor), ∀ lexeme ∈ cursor.feed.lexemes, lexeme.token.kind = .string →
      ∃ quote content, isQuote quote = true ∧ quote ∉ content ∧
        lexeme.token.text = String.ofList (quote :: (content ++ [quote])) ∧
        2 ≤ lexeme.token.text.utf8ByteSize ∧
        String.Pos.Raw.IsValid lexeme.token.text ⟨1⟩ ∧
        String.Pos.Raw.IsValid lexeme.token.text ⟨lexeme.token.text.utf8ByteSize - 1⟩ ∧
        sliceBytes? lexeme.token.text 1 (lexeme.token.text.utf8ByteSize - 1) =
          some (String.ofList content)) := by
  refine ⟨?_, ?_⟩
  · intro requests
    exact OpenReading.serveAll_eq (Scanner.exact_ofText source) rfl requests
  · intro cursor lexeme member isString
    have spells := Cursor.spells_of_mem_feed member
    rw [isString] at spells
    exact exists_quoted_of_spells spells

/-- A string with a wide character and the other quote in it is cut when the text is read, and the
    next text ends right behind the opener of a comment, the last one behind a quote. -/
theorem accesses_are_in_range_of_wide_string :
    ((OpenReading.ofText "let s: string = 'é\"';").serveAll
        [.parse, .scan (.init "/*"), .scan .tokenize, .scan (.init "'"), .scan .next]).map
          (List.map Prod.fst) =
      some [.parsed (.ok ⟨[.variableDeclaration "s" "string" (.string "é\"")]⟩),
        .scanned .started,
        .scanned (.tokens (.ok [⟨.operator, "/", ⟨0, 1, 1⟩⟩, ⟨.operator, "*", ⟨1, 1, 2⟩⟩])),
        .scanned .started,
        .scanned (.token (.error (.openString '\'' ⟨0, 1, 1⟩)))] ∧
    (⟨⟨.string, "'é\"'", ⟨0, 1, 1⟩⟩, ⟨[], ⟨4, 1, 5⟩⟩⟩ : Lexeme) ∈
      (Cursor.ofText "'é\"'").feed.lexemes ∧
    ∃ quote content, quote ∉ content ∧
      "'é\"'" = String.ofList (quote :: (content ++ [quote])) ∧
      sliceBytes? "'é\"'" 1 4 = some (String.ofList content) := by
  have lexemes : (Cursor.ofText "'é\"'").feed.lexemes =
      [⟨⟨.string, "'é\"'", ⟨0, 1, 1⟩⟩, ⟨[], ⟨4, 1, 5⟩⟩⟩] := by
    cbv
  have member := lexemes ▸ List.mem_singleton_self _
  obtain ⟨served, cut⟩ := accesses_are_in_range "let s: string = 'é\"';"
  refine ⟨?_, member, ?_⟩
  · rw [served]
    cbv
  · obtain ⟨quote, content, -, free, text, -, -, -, slice⟩ := cut _ _ member rfl
    exact ⟨quote, content, free, text, slice⟩

end TinyScript
