import TinyScript.Proofs.MaximalMunch
import TinyScript.Proofs.Simulation

/-!
# Layout

What stands between the tokens of a text carries no meaning. If the texts of the tokens are
written down again with blanks between them, whatever blanks these are and whatever stood there
before, the same tokens are found in them: no token takes in a blank behind it, and none is cut by
what follows a blank. Readers do not see more of the tokens than their kinds and their texts, so
that the program is the same, or what is wrong with it.
-/

namespace TinyScript

/-! ## Blanks behind tokens -/

/-- No token goes on with a blank. -/
theorem goesOn_of_isBlank {char : Char} (blank : isBlank char = true) (kind : TokenKind) :
    goesOn kind char = false := by
  -- All characters that a token goes on with are visible.
  have outside (above : 33 ≤ char.toNat) (below : char.toNat ≤ 126) : False := by
    rw [not_isBlank_of_toNat above below] at blank
    cases blank
  have digit : char.isDigit = false := by
    rw [Bool.eq_false_iff]
    intro isDigit
    have code := isDigit_iff_toNat.mp isDigit
    exact outside (by omega) (by omega)
  have word : isWordPart char = false := by
    rw [Bool.eq_false_iff]
    intro part
    rcases isWordPart_iff.mp part with start | isDigit
    · have code := isWordStart_iff_toNat.mp start
      exact outside (by omega) (by omega)
    · rw [digit] at isDigit
      cases isDigit
  have slash : char ≠ '/' := by
    rintro rfl
    exact outside (by decide) (by decide)
  have star : char ≠ '*' := by
    rintro rfl
    exact outside (by decide) (by decide)
  cases kind <;> simp [goesOn, digit, word, slash, star]

theorem Scans.blanks {run text rest : List Char} {symbols : List Symbol}
    (all : ∀ char ∈ run, isBlank char = true) (h : Scans text symbols rest) :
    Scans (run ++ text) symbols rest := by
  induction run with
  | nil => exact h
  | cons char run ih =>
    obtain ⟨blank, others⟩ := List.forall_mem_cons.mp all
    exact (ih others).blank blank

/-! ## Texts laid out anew -/

/-- Words with a gap before each of them and one behind the last. -/
def interleave : List String → List String → String
  | gap :: gaps, word :: words => gap ++ (word ++ interleave gaps words)
  | gap :: _, [] => gap
  | [], _ => ""

/-- The blanks around a number of words. Only those before the first word and behind the last one
    may be left out. -/
structure Spacing (count : Nat) where
  gaps : List String
  length : gaps.length = count + 1
  blank : ∀ gap ∈ gaps, ∀ char ∈ gap.toList, isBlank char = true
  parted : ∀ gap ∈ gaps.tail.dropLast, gap ≠ ""

namespace Spacing

/-- The words with these blanks around them. -/
def lay {words : List String} (spacing : Spacing words.length) : String :=
  interleave spacing.gaps words

/-- The blanks behind the first word. -/
def tail {count : Nat} (spacing : Spacing (count + 1)) : Spacing count where
  gaps := spacing.gaps.tail
  length := by simp [spacing.length]
  blank gap member := spacing.blank gap (List.mem_of_mem_tail member)
  parted gap member := by
    apply spacing.parted gap
    rw [← List.tail_dropLast] at member
    exact List.mem_of_mem_tail member

theorem exists_cons {count : Nat} (spacing : Spacing count) :
    ∃ gap gaps, spacing.gaps = gap :: gaps ∧ ∀ char ∈ gap.toList, isBlank char = true := by
  obtain ⟨gap, gaps, cons⟩ := List.exists_cons_of_length_eq_add_one spacing.length
  exact ⟨gap, gaps, cons, spacing.blank gap (by simp [cons])⟩

theorem lay_cons {word : String} {words : List String}
    (spacing : Spacing (word :: words).length) :
    ∃ gap : String, (∀ char ∈ gap.toList, isBlank char = true) ∧
      spacing.lay = gap ++ (word ++ spacing.tail.lay) := by
  obtain ⟨gap, gaps, cons, blank⟩ := spacing.exists_cons
  refine ⟨gap, blank, ?_⟩
  simp only [lay, tail, cons, interleave, List.tail_cons]

/-- What follows a word is a blank, if anything. -/
theorem isBlank_of_mem_head? {word : String} {words : List String}
    (spacing : Spacing (word :: words).length) :
    ∀ char ∈ spacing.tail.lay.toList.head?, isBlank char = true := by
  intro char member
  obtain ⟨gap, gaps, cons, blank⟩ := spacing.tail.exists_cons
  have front : char ∈ gap.toList := by
    cases words with
    | nil =>
      rw [lay, cons, interleave] at member
      exact List.mem_of_mem_head? member
    | cons next words =>
      -- Another word follows, and so the gap is not empty.
      have nonempty : gap ≠ "" := by
        apply spacing.parted gap
        have more : gaps ≠ [] := by
          have length := spacing.tail.length
          rw [cons] at length
          rintro rfl
          simp at length
        have behind : spacing.gaps.tail = gap :: gaps := cons
        rw [behind, List.dropLast_cons_of_ne_nil more]
        exact List.mem_cons_self
      have chars : gap.toList ≠ [] := by
        rw [ne_eq, String.toList_eq_nil_iff]
        exact nonempty
      rw [lay, cons, interleave, String.toList_append,
        List.head?_append_of_ne_nil _ chars] at member
      exact List.mem_of_mem_head? member
  exact blank char front

/-- Tokens that are laid out are found again. -/
theorem scans_lay {tokens : List Token}
    (spelled : ∀ token ∈ tokens, Spells token.kind token.text.toList)
    (spacing : Spacing (tokens.map Token.text).length) :
    Scans spacing.lay.toList (tokens.map Token.symbol) [] := by
  induction tokens with
  | nil =>
    obtain ⟨gap, gaps, cons, blank⟩ := spacing.exists_cons
    have text : spacing.lay.toList = gap.toList ++ [] := by
      rw [lay, cons, List.append_nil]
      rfl
    rw [text]
    exact (Scans.refl []).blanks blank
  | cons token tokens ih =>
    obtain ⟨first, others⟩ := List.forall_mem_cons.mp spelled
    obtain ⟨gap, blank, text⟩ := spacing.lay_cons
    have parted : Parted token.kind spacing.tail.lay.toList := by
      intro char member
      exact goesOn_of_isBlank (spacing.isBlank_of_mem_head? char member) token.kind
    have scans := (ih others spacing.tail).token first parted
    rw [String.ofList_toList] at scans
    rw [text, String.toList_append, String.toList_append]
    exact scans.blanks blank

end Spacing

/-! ## Readings of the same symbols -/

/-- The same program, or errors of the same kind and with the same message. -/
inductive SameAnswer : Except ParseError Program → Except ParseError Program → Prop
  | ok (program : Program) : SameAnswer (.ok program) (.ok program)
  | error {error error' : ParseError} (kind : error'.report.kind = error.report.kind)
      (message : error'.report.message = error.report.message) :
      SameAnswer (.error error) (.error error')

/-- Feeds with the same symbols up to the end of the text. -/
def FeedRelation.sameSymbols : FeedRelation where
  Feeds feed feed' :=
    feed'.lexemes.map (fun lexeme => lexeme.token.symbol) =
      feed.lexemes.map (fun lexeme => lexeme.token.symbol) ∧
    (∃ cursor, feed.ending = .finish cursor) ∧ ∃ cursor, feed'.ending = .finish cursor
  Tokens token token' := token'.symbol = token.symbol
  Failures failure failure' := SameAnswer (.error failure.error) (.error failure'.error)
  Stops _ := False

theorem Token.describe_of_symbol {token token' : Token} (same : token'.symbol = token.symbol) :
    token'.describe = token.describe := by
  have kind : token'.kind = token.kind := congrArg Symbol.kind same
  have text : token'.text = token.text := congrArg Symbol.text same
  rw [Token.describe, Token.describe, kind, text]

theorem FeedRelation.sameSymbols_unexpected {feed feed' : Feed}
    (related : FeedRelation.sameSymbols.Feeds feed feed') (expected : Expected) :
    FeedRelation.sameSymbols.Failures (feed.unexpected expected) (feed'.unexpected expected) := by
  obtain ⟨lexemes, ending⟩ := feed
  obtain ⟨lexemes', ending'⟩ := feed'
  obtain ⟨same, -, -⟩ := related
  refine .error rfl ?_
  cases lexemes with
  | nil =>
    obtain rfl := List.map_eq_nil_iff.mp same
    rfl
  | cons lexeme rest =>
    obtain ⟨lexeme', rest', rfl, symbol, -⟩ := List.map_eq_cons_iff.mp same
    simp [Feed.unexpected, ParseError.report, GrammarError.report,
      Token.describe_of_symbol symbol]

theorem FeedRelation.sameSymbols_lawful : FeedRelation.sameSymbols.Lawful where
  lookahead := by
    rintro feed feed' ⟨same, -, -⟩
    have heads := congrArg List.head? same
    rw [List.head?_map, List.head?_map] at heads
    exact heads.symm
  symbol := by
    intro token token' same
    exact same.symm
  eat := by
    intro feed feed' kind related
    have refused := FeedRelation.sameSymbols_unexpected related (.token kind)
    obtain ⟨lexemes, ending⟩ := feed
    obtain ⟨lexemes', ending'⟩ := feed'
    obtain ⟨same, ⟨cursor, finish⟩, cursor', finish'⟩ := related
    simp only at same finish finish'
    subst finish finish'
    cases lexemes with
    | nil =>
      obtain rfl := List.map_eq_nil_iff.mp same
      exact .error refused
    | cons lexeme rest =>
      obtain ⟨lexeme', rest', rfl, symbol, others⟩ := List.map_eq_cons_iff.mp same
      have kinds : lexeme'.token.kind = lexeme.token.kind := congrArg Symbol.kind symbol
      have guard (lexemes : List Lexeme) (cursor : Cursor) :
          Feed.guard ⟨lexemes, .finish cursor⟩ = .ok ⟨lexemes, .finish cursor⟩ :=
        Feed.guard_eq_ok_iff.mpr ⟨rfl, fun _ => ⟨cursor, rfl⟩⟩
      by_cases fits : lexeme.token.kind = kind
      · simp only [Parser.eat, kinds, if_pos fits, guard]
        exact .ok symbol ⟨others, ⟨cursor, rfl⟩, cursor', rfl⟩ (Nat.le_refl _) (Nat.le_refl _)
      · simp only [Parser.eat, kinds, if_neg fits]
        exact .error refused
  unexpected := by
    intro feed feed' expected related
    exact FeedRelation.sameSymbols_unexpected related expected
  tooLarge := by
    intro token token' feed feed' same related
    have text : token'.text = token.text := congrArg Symbol.text same
    refine .error rfl ?_
    simp only [ParseError.report, GrammarError.report, text]

/-- Texts whose tokens have the same symbols are read alike. -/
theorem Program.parse_of_symbols {source source' : String} {tokens tokens' : List Token}
    (tokenized : tokenize source = .ok tokens) (tokenized' : tokenize source' = .ok tokens')
    (same : tokens'.map Token.symbol = tokens.map Token.symbol) :
    SameAnswer (Program.parse source) (Program.parse source') := by
  obtain ⟨finish, rfl⟩ := Feed.tokens_eq_ok_iff.mp tokenized
  obtain ⟨finish', rfl⟩ := Feed.tokens_eq_ok_iff.mp tokenized'
  rw [List.map_map, List.map_map] at same
  have outcome := FeedRelation.sameSymbols_lawful.outcomes_program
    (show FeedRelation.sameSymbols.Feeds (Cursor.ofText source).feed (Cursor.ofText source').feed
      from ⟨same, finish, finish'⟩)
  have guard {feed : Feed} (finish : ∃ cursor, feed.ending = .finish cursor) :
      feed.guard = .ok feed :=
    Feed.guard_eq_ok_iff.mpr ⟨rfl, fun _ => finish⟩
  have goesOn (feed : Feed) : (Except.ok feed >>= Parser.program) = Parser.program feed := rfl
  rw [Program.parse, Program.parse, Cursor.parse, Cursor.parse, guard finish, guard finish', goesOn,
    goesOn]
  generalize Parser.program (Cursor.ofText source).feed = result,
    Parser.program (Cursor.ofText source').feed = result' at outcome
  cases outcome with
  | ok equal related less less' =>
    obtain rfl := equal
    exact .ok _
  | error related => exact related
  | stopped h => exact absurd h id

/-- A text may be laid out anew: if its tokens are written with any blanks between them, the same
    kinds and texts are found, and the program is the same, or the error up to its place. -/
theorem layout_carries_no_meaning {source : String} {tokens : List Token}
    (tokenized : tokenize source = .ok tokens)
    (spacing : Spacing (tokens.map Token.text).length) :
    (∃ tokens', tokenize spacing.lay = .ok tokens' ∧
      tokens'.map (fun token => (token.kind, token.text)) =
        tokens.map (fun token => (token.kind, token.text))) ∧
    SameAnswer (Program.parse source) (Program.parse spacing.lay) := by
  obtain ⟨tokens', tokenized', same⟩ :=
    (spacing.scans_lay (spells_of_tokenize tokenized)).tokenize
  refine ⟨⟨tokens', tokenized', ?_⟩, Program.parse_of_symbols tokenized tokenized' same⟩
  have pairs := congrArg (List.map fun symbol : Symbol => (symbol.kind, symbol.text)) same
  rw [List.map_map, List.map_map] at pairs
  exact pairs

/-- The opener of a comment that is not closed, taken apart, and words with other blanks between
    them. -/
theorem layout_carries_no_meaning_unclosed :
    ∃ tokens, tokenize "return a/*\"b //\"" = .ok tokens ∧
      ∃ spacing : Spacing (tokens.map Token.text).length,
        spacing.lay = "\treturn a\n/ * \"b //\"" ∧
        SameAnswer (Program.parse "return a/*\"b //\"")
          (Program.parse "\treturn a\n/ * \"b //\"") := by
  have tokenized : tokenize "return a/*\"b //\"" = .ok
      [⟨.returnKeyword, "return", ⟨0, 1, 1⟩⟩, ⟨.identifier, "a", ⟨7, 1, 8⟩⟩,
        ⟨.operator, "/", ⟨8, 1, 9⟩⟩, ⟨.operator, "*", ⟨9, 1, 10⟩⟩,
        ⟨.string, "\"b //\"", ⟨10, 1, 11⟩⟩] := by
    cbv
  have blank : ["\t", " ", "\n", " ", " ", ""].all (fun gap => gap.toList.all isBlank) =
      true := by
    decide
  have parted : ["\t", " ", "\n", " ", " ", ""].tail.dropLast.all (· ≠ "") = true := by
    decide
  let spacing : Spacing 5 :=
    { gaps := ["\t", " ", "\n", " ", " ", ""]
      length := rfl
      blank := fun gap member => List.all_eq_true.mp (List.all_eq_true.mp blank gap member)
      parted := fun gap member => by simpa using List.all_eq_true.mp parted gap member }
  exact ⟨_, tokenized, spacing, rfl, (layout_carries_no_meaning tokenized spacing).2⟩

end TinyScript
