import TinyScript.Proofs.ExactPlaces
import TinyScript.Proofs.KeptNumbers
import TinyScript.Proofs.Prediction

/-!
# Errors at the first offending token

A program that is refused for its grammar is refused at the first token that no program could have
at its place: what comes before can be completed to a program, and what includes the token cannot.
The end of the input is reported only where all tokens can be completed to a program, but do not
make up one.

That the tokens up to an error can be completed is what readers foresee. That they cannot be with
the token at the error follows from the fact that readers do the same on every feed that begins in
this way, whereas a feed of symbols that the grammar derives is read. Numbers beyond the finite ones
are derived too but not read, and stand in the way of this argument: they are replaced by zeros,
which the grammar does not notice.
-/

namespace TinyScript

/-! ## Numbers out of range -/

/-- Zero in the place of a number beyond the finite ones. -/
def Symbol.tamed (symbol : Symbol) : Symbol :=
  if symbol.kind = .number ∧ Binary64.ofDigits? symbol.text.toList = none then ⟨.number, "0"⟩
  else symbol

theorem Symbol.tamed_of_inRange {symbol : Symbol} (h : symbol.InRange) : symbol.tamed = symbol := by
  apply if_neg
  rintro ⟨number, none⟩
  obtain ⟨value, some⟩ := h number
  rw [none] at some
  cases some

theorem Symbol.tamed_of_kind {symbol : Symbol} (h : symbol.kind ≠ .number) :
    symbol.tamed = symbol :=
  tamed_of_inRange (inRange_of_kind h)

theorem Symbol.tamed_kind (symbol : Symbol) : symbol.tamed.kind = symbol.kind := by
  unfold tamed
  split
  case isTrue h => exact h.1.symm
  case isFalse => rfl

theorem Symbol.tamed_inRange (symbol : Symbol) : symbol.tamed.InRange := by
  unfold tamed
  split
  case isTrue =>
    intro _
    obtain ⟨zero, read, -⟩ := Binary64.exists_ofNat?_of_lt (by decide : 0 < 2 ^ 53)
    exact ⟨zero, read⟩
  case isFalse h =>
    intro number
    exact Option.ne_none_iff_exists'.mp fun none => h ⟨number, none⟩

theorem Terminal.tamed_symbol {kind : TokenKind} (other : kind ≠ .number)
    (terminal : Terminal kind) : terminal.symbol.tamed = terminal.symbol :=
  Symbol.tamed_of_kind other

theorem Operator.tamed_terminal (operator : Operator) :
    operator.terminal.tamed = operator.terminal :=
  Symbol.tamed_of_kind (by simp [Operator.terminal])

theorem LiteralPhrase.exists_tamed (phrase : LiteralPhrase) :
    ∃ other : LiteralPhrase, other.symbol = phrase.symbol.tamed := by
  cases phrase with
  | number numeral =>
    have kind := Symbol.tamed_kind (LiteralPhrase.number numeral).symbol
    generalize (LiteralPhrase.number numeral).symbol.tamed = other at kind
    obtain ⟨_, text⟩ := other
    obtain rfl := kind
    exact ⟨.number ⟨text⟩, rfl⟩
  | string quoted => exact ⟨.string quoted, (quoted.tamed_symbol (by decide)).symm⟩
  | identifier name => exact ⟨.identifier name, (name.tamed_symbol (by decide)).symm⟩

mutual

/-- The symbols of an expression, tamed, are those of an expression. -/
theorem ExpressionPhrase.exists_tamed : (phrase : ExpressionPhrase) →
    ∃ other : ExpressionPhrase, other.symbols = phrase.symbols.map Symbol.tamed
  | .mk first rest => by
    obtain ⟨first', same⟩ := first.exists_tamed
    obtain ⟨rest', same'⟩ := ExpressionPhrase.exists_tamed_rest rest
    exact ⟨.mk first' rest', by simp [ExpressionPhrase.symbols, same, same']⟩

theorem ExpressionPhrase.exists_tamed_rest : (rest : List (Joined sumOperators TermPhrase)) →
    ∃ other, ExpressionPhrase.restSymbols other =
      (ExpressionPhrase.restSymbols rest).map Symbol.tamed
  | [] => ⟨[], rfl⟩
  | ⟨operator, allowed, term⟩ :: rest => by
    obtain ⟨term', same⟩ := term.exists_tamed
    obtain ⟨rest', same'⟩ := ExpressionPhrase.exists_tamed_rest rest
    exact ⟨⟨operator, allowed, term'⟩ :: rest', by
      simp [ExpressionPhrase.restSymbols, same, same', Operator.tamed_terminal]⟩

theorem TermPhrase.exists_tamed : (phrase : TermPhrase) →
    ∃ other : TermPhrase, other.symbols = phrase.symbols.map Symbol.tamed
  | .mk first rest => by
    obtain ⟨first', same⟩ := first.exists_tamed
    obtain ⟨rest', same'⟩ := TermPhrase.exists_tamed_rest rest
    exact ⟨.mk first' rest', by simp [TermPhrase.symbols, same, same']⟩

theorem TermPhrase.exists_tamed_rest : (rest : List (Joined productOperators FactorPhrase)) →
    ∃ other, TermPhrase.restSymbols other = (TermPhrase.restSymbols rest).map Symbol.tamed
  | [] => ⟨[], rfl⟩
  | ⟨operator, allowed, factor⟩ :: rest => by
    obtain ⟨factor', same⟩ := factor.exists_tamed
    obtain ⟨rest', same'⟩ := TermPhrase.exists_tamed_rest rest
    exact ⟨⟨operator, allowed, factor'⟩ :: rest', by
      simp [TermPhrase.restSymbols, same, same', Operator.tamed_terminal]⟩

theorem FactorPhrase.exists_tamed : (phrase : FactorPhrase) →
    ∃ other : FactorPhrase, other.symbols = phrase.symbols.map Symbol.tamed
  | .parentheses left inner right => by
    obtain ⟨inner', same⟩ := inner.exists_tamed
    refine ⟨.parentheses left inner' right, ?_⟩
    simp (disch := decide) [FactorPhrase.symbols, same, Terminal.tamed_symbol]
  | .literal literal => by
    obtain ⟨literal', same⟩ := literal.exists_tamed
    exact ⟨.literal literal', by simp [FactorPhrase.symbols, same]⟩

end

theorem VariablePhrase.exists_tamed (phrase : VariablePhrase) :
    ∃ other : VariablePhrase, other.symbols = phrase.symbols.map Symbol.tamed := by
  obtain ⟨value', same⟩ := phrase.value.exists_tamed
  refine ⟨{ phrase with value := value' }, ?_⟩
  simp (disch := decide) [VariablePhrase.symbols, same, Terminal.tamed_symbol]

theorem ReturnPhrase.exists_tamed (phrase : ReturnPhrase) :
    ∃ other : ReturnPhrase, other.symbols = phrase.symbols.map Symbol.tamed := by
  obtain ⟨keyword, argument, semicolon⟩ := phrase
  cases argument with
  | none =>
    refine ⟨⟨keyword, none, semicolon⟩, ?_⟩
    simp (disch := decide) [ReturnPhrase.symbols, Terminal.tamed_symbol]
  | some argument =>
    obtain ⟨argument', same⟩ := argument.exists_tamed
    refine ⟨⟨keyword, some argument', semicolon⟩, ?_⟩
    simp (disch := decide) [ReturnPhrase.symbols, same, Terminal.tamed_symbol]

/-- No numbers occur in a signature. -/
theorem SignaturePhrase.map_tamed (phrase : SignaturePhrase) :
    phrase.symbols.map Symbol.tamed = phrase.symbols := by
  have parameter (phrase : ParameterPhrase) :
      phrase.symbols.map Symbol.tamed = phrase.symbols := by
    simp (disch := decide) [ParameterPhrase.symbols, Terminal.tamed_symbol]
  have more (rest : List (Terminal .comma × ParameterPhrase)) :
      (moreSymbols rest).map Symbol.tamed = moreSymbols rest := by
    induction rest with
    | nil => rfl
    | cons link rest ih =>
      have split : moreSymbols (link :: rest) =
          link.1.symbol :: (link.2.symbols ++ moreSymbols rest) := by
        simp [moreSymbols]
      simp (disch := decide) [split, ih, parameter, Terminal.tamed_symbol]
  have list : (phrase.parameters.elim [] ParametersPhrase.symbols).map Symbol.tamed =
      phrase.parameters.elim [] ParametersPhrase.symbols := by
    cases phrase.parameters with
    | none => rfl
    | some list => simp [ParametersPhrase.symbols, parameter, more]
  simp (disch := decide) [SignaturePhrase.symbols, list, Terminal.tamed_symbol]

mutual

theorem StatementPhrase.exists_tamed : (phrase : StatementPhrase) →
    ∃ other : StatementPhrase, other.symbols = phrase.symbols.map Symbol.tamed
  | .variableDeclaration phrase => by
    obtain ⟨phrase', same⟩ := phrase.exists_tamed
    exact ⟨.variableDeclaration phrase', by simp [StatementPhrase.symbols, same]⟩
  | .functionDeclaration signature left body right => by
    obtain ⟨body', same⟩ := StatementPhrase.exists_tamed_body body
    refine ⟨.functionDeclaration signature left body' right, ?_⟩
    simp (disch := decide) [StatementPhrase.symbols, same, signature.map_tamed,
      Terminal.tamed_symbol]
  | .returnStatement phrase => by
    obtain ⟨phrase', same⟩ := phrase.exists_tamed
    exact ⟨.returnStatement phrase', by simp [StatementPhrase.symbols, same]⟩

theorem StatementPhrase.exists_tamed_body : (body : List StatementPhrase) →
    ∃ other, StatementPhrase.bodySymbols other =
      (StatementPhrase.bodySymbols body).map Symbol.tamed
  | [] => ⟨[], rfl⟩
  | statement :: body => by
    obtain ⟨statement', same⟩ := statement.exists_tamed
    obtain ⟨body', same'⟩ := StatementPhrase.exists_tamed_body body
    exact ⟨statement' :: body', by simp [StatementPhrase.bodySymbols, same, same']⟩

end

/-! ## Feeds of symbols -/

/-- A token and the end of the input, of which only the symbol matters. -/
def Symbol.lexeme (symbol : Symbol) : Lexeme :=
  ⟨⟨symbol.kind, symbol.text, .start⟩, ⟨[], .start⟩⟩

/-- A feed of given symbols. -/
def Feed.ofSymbols (symbols : List Symbol) : Feed :=
  ⟨symbols.map Symbol.lexeme, .finish ⟨[], .start⟩⟩

theorem Feed.lookahead_ofSymbols (symbols : List Symbol) :
    (Feed.ofSymbols symbols).lookahead = symbols.head? := by
  cases symbols <;> rfl

theorem Feed.guarded_ofSymbols (symbols : List Symbol) : (Feed.ofSymbols symbols).Guarded :=
  fun _ => ⟨_, rfl⟩

theorem Feed.passes_ofSymbols {first : List Symbol} (ranges : ∀ symbol ∈ first, symbol.InRange)
    (second : List Symbol) :
    (Feed.ofSymbols (first ++ second)).Passes first (Feed.ofSymbols second) := by
  have passed := @Feed.passes_lexemes (first.map Symbol.lexeme) _ (guarded_ofSymbols second)
    (List.forall_mem_map.mpr ranges)
  rw [List.map_map] at passed
  have symbols : first.map ((fun lexeme => lexeme.token.symbol) ∘ Symbol.lexeme) = first :=
    List.map_id first
  rw [symbols] at passed
  rw [Feed.ofSymbols, List.map_append]
  exact passed

/-- Numbers out of range do not look different from others. -/
theorem Feed.alike_tamed {feed : Feed} {symbols : List Symbol}
    (ahead : feed.lookahead = symbols.head?) :
    feed.Alike (Feed.ofSymbols (symbols.map Symbol.tamed)) := by
  cases symbols with
  | nil => exact .of_lookahead ahead
  | cons symbol symbols =>
    by_cases number : symbol.kind = .number
    · refine ⟨?_, ?_⟩
      · rw [Feed.kind?_eq_map, Feed.kind?_eq_map, ahead, Feed.lookahead_ofSymbols]
        simp [Symbol.tamed_kind]
      · intro operators
        rw [Feed.operator?, Feed.operator?, ahead, Feed.lookahead_ofSymbols]
        simp [Symbol.tamed_kind, number]
    · apply Feed.Alike.of_lookahead
      rw [ahead, Feed.lookahead_ofSymbols, List.map_cons, Symbol.tamed_of_kind number]
      rfl

theorem Feed.Passes.inRange {feed behind : Feed} {symbols : List Symbol}
    (h : feed.Passes symbols behind) : ∀ symbol ∈ symbols, symbol.InRange := by
  induction symbols generalizing feed with
  | nil => simp
  | cons symbol symbols ih =>
    obtain ⟨token, mid, -, -, range, rest⟩ := h
    exact List.forall_mem_cons.mpr ⟨range, ih rest⟩

/-- Passing symbols splits the tokens of a feed. -/
theorem Feed.Passes.exists_lexemes {feed behind : Feed} {symbols : List Symbol}
    (h : feed.Passes symbols behind) (guarded : feed.Guarded) :
    ∃ passed, feed.lexemes = passed ++ behind.lexemes ∧ behind.ending = feed.ending ∧
      passed.map (fun lexeme => lexeme.token.symbol) = symbols ∧ behind.Guarded := by
  induction symbols generalizing feed with
  | nil =>
    obtain rfl : feed = behind := h
    exact ⟨[], rfl, rfl, rfl, guarded⟩
  | cons symbol symbols ih =>
    obtain ⟨token, mid, eaten, text, -, rest⟩ := h
    obtain ⟨kind, ⟨cursor, lexemes⟩, ending, guarded⟩ := Parser.eat_eq_ok_iff.mp eaten
    obtain ⟨passed, split, ending', rfl, guarded⟩ := ih rest guarded
    refine ⟨⟨token, cursor⟩ :: passed, ?_, ending'.trans ending, ?_, guarded⟩
    · rw [lexemes, split, List.cons_append]
    · rw [List.map_cons, Token.symbol, kind, text]

/-! ## Refused programs -/

/-- A feed of symbols that the grammar derives is read if its numbers are in range. -/
theorem statementsToEnd_ofSymbols {phrases : List StatementPhrase} {bound : Nat}
    (ranges : ∀ symbol ∈ StatementPhrase.bodySymbols phrases, symbol.InRange)
    (large : (StatementPhrase.bodySymbols phrases).length < bound) :
    Parser.statementsToEnd (Parser.statement bound) bound
      (Feed.ofSymbols (StatementPhrase.bodySymbols phrases)) =
        .ok (StatementPhrase.bodyTree phrases, Feed.ofSymbols []) := by
  have length : (Feed.ofSymbols (StatementPhrase.bodySymbols phrases)).lexemes.length =
      (StatementPhrase.bodySymbols phrases).length := by
    simp [Feed.ofSymbols]
  have passed := Feed.passes_ofSymbols ranges []
  rw [List.append_nil] at passed
  exact (statementsToEnd_eq_ok_iff (statement_recognizes bound) bound (by omega) (by omega)).mpr
    ⟨phrases, passed, rfl, rfl⟩

/-- Where a reading is settled as an error behind some symbols, these do not start a program that
    goes on with the lookahead. -/
theorem Parser.Settles.not_derived {bound : Nat} {symbols : List Symbol} {mid : Feed}
    {expected : Expected}
    (settles : (Parser.statementsToEnd (Parser.statement bound) bound).Settles symbols mid
      fun mid => .error (mid.unexpected expected))
    (ranges : ∀ symbol ∈ symbols, symbol.InRange) {tail : List Symbol}
    (ahead : mid.lookahead = tail.head?) (large : (symbols ++ tail).length < bound)
    (phrase : ProgramPhrase) : phrase.symbols ≠ symbols ++ tail := by
  intro derived
  obtain ⟨phrases, tamed⟩ := StatementPhrase.exists_tamed_body phrase.statements
  have fixed : symbols.map Symbol.tamed = symbols := by
    rw [List.map_congr_left fun symbol member => Symbol.tamed_of_inRange (ranges symbol member)]
    exact List.map_id symbols
  rw [ProgramPhrase.symbols] at derived
  rw [derived, List.map_append, fixed] at tamed
  have refused := settles (Feed.passes_ofSymbols ranges (tail.map Symbol.tamed))
    (Feed.alike_tamed ahead)
  have read := @statementsToEnd_ofSymbols phrases bound (by
    rw [tamed, List.forall_mem_append]
    exact ⟨ranges, List.forall_mem_map.mpr fun symbol _ => symbol.tamed_inRange⟩) (by
    rw [tamed]
    simpa using large)
  rw [tamed, refused] at read
  cases read

/-- What is known of a program that is refused at a token or at the end of the input: the tokens
    before can be completed by spelled ones to those of a program, and no program has them and goes
    on as the refused one does. Programs are taken into account up to a bound on their length. -/
theorem exists_refused {feed : Feed} {failure : Failure} {expected : Expected} {bound : Nat}
    (guarded : feed.Guarded) (failed : Parser.program feed = .error failure)
    (expects : failure.Expects expected) (large : feed.lexemes.length < bound) :
    ∃ passed rest, feed.lexemes = passed ++ rest ∧ (Feed.mk rest feed.ending).Guarded ∧
      (Feed.mk rest feed.ending).unexpected expected = failure ∧
      (∃ (phrase : ProgramPhrase) (more : List Symbol), phrase.symbols =
        passed.map (fun lexeme => lexeme.token.symbol) ++ more ∧ ∀ symbol ∈ more, symbol.Proper) ∧
      ∀ (phrase : ProgramPhrase) (tail : List Symbol), phrase.symbols.length < bound →
        tail.head? = rest.head?.map (fun lexeme => lexeme.token.symbol) →
        phrase.symbols ≠ passed.map (fun lexeme => lexeme.token.symbol) ++ tail := by
  rw [program_eq_map, statementsToEnd_of_bounds (Nat.le_succ _) (Nat.le_of_lt large)
    (Nat.lt_succ_self _) large] at failed
  have read : Parser.statementsToEnd (Parser.statement bound) bound feed = .error failure := by
    cases read : Parser.statementsToEnd (Parser.statement bound) bound feed with
    | error refused =>
      rw [read] at failed
      cases failed
      rfl
    | ok answer =>
      rw [read] at failed
      cases failed
  obtain ⟨_, more, mid, ⟨phrases, derived⟩, proper, passed, same, settles⟩ :=
    (predicts_statementsToEnd (predicts_statement bound) bound feed).refuses read expects
  obtain ⟨lexemes, split, ending, rfl, guarded⟩ := passed.exists_lexemes guarded
  obtain ⟨rest, _⟩ := mid
  obtain rfl := ending
  refine ⟨lexemes, rest, split, guarded, same, ⟨⟨phrases⟩, more, derived, proper⟩, ?_⟩
  intro phrase tail short ahead derived
  rw [derived] at short
  exact settles.not_derived passed.inRange ahead.symm short phrase derived

/-! ## Places of tokens -/

theorem Cursor.IsIn.offset_add {text : List Char} {cursor : Cursor} (h : cursor.IsIn text) :
    cursor.position.offset + cursor.rest.length = text.length := by
  obtain ⟨before, rfl, place⟩ := h
  rw [place, List.length_append]
  rfl

/-- A token starts behind the cursor and ends before the next one. -/
theorem Cursor.IsIn.next_offsets {text : List Char} {cursor behind : Cursor} {token : Token}
    (h : cursor.IsIn text) (next : cursor.next = .token token behind) :
    cursor.position.offset ≤ token.start.offset ∧
      token.start.offset < behind.position.offset := by
  have here := h.offset_add
  have start := h.skipGap.offset_add
  have skipped := Cursor.behindGap_rest_length_le .blanks cursor.rest cursor.position
  rw [← Cursor.skipGap] at skipped
  simp only [Cursor.next] at next
  cases front : Front.ofText cursor.skipGap.rest with
  | token kind length =>
    rw [front] at next
    cases next
    have last := (h.skipGap.pass length).offset_add
    obtain ⟨positive, nonempty⟩ := Front.length_pos_of_token front
    have some := List.length_pos_iff.mpr nonempty
    rw [show (cursor.skipGap.pass length).rest = cursor.skipGap.rest.drop length from rfl,
      List.length_drop] at last
    constructor
    · show _ ≤ cursor.skipGap.position.offset
      omega
    · show cursor.skipGap.position.offset < _
      omega
  | nothing => rw [front] at next; cases next
  | openString quote => rw [front] at next; cases next
  | stray char => rw [front] at next; cases next

/-- Tokens start one behind the other, and before the end of the text. -/
theorem Cursor.IsIn.feed_offsets {text : List Char} {cursor : Cursor} (h : cursor.IsIn text) :
    (∀ lexeme ∈ cursor.feed.lexemes, cursor.position.offset ≤ lexeme.token.start.offset ∧
      lexeme.token.start.offset < text.length) ∧
    cursor.feed.lexemes.Pairwise fun lexeme later =>
      lexeme.token.start.offset < later.token.start.offset := by
  induction length : cursor.rest.length using Nat.strong_induction_on generalizing cursor with
  | _ count ih =>
    cases next : cursor.next with
    | finish behind => simp [Cursor.feed_of_finish next]
    | fault error behind => simp [Cursor.feed_of_fault next]
    | token token behind =>
      have inText : behind.IsIn text := by
        have step := h.next
        rw [next] at step
        exact step.1
      have shorter := Cursor.next_rest_length_lt next
      obtain ⟨bounds, sorted⟩ := ih _ (length ▸ shorter) inText rfl
      obtain ⟨low, high⟩ := h.next_offsets next
      have last := inText.offset_add
      rw [Cursor.feed_of_next next]
      have within : token.start.offset < text.length := by omega
      refine ⟨List.forall_mem_cons.mpr ⟨⟨low, within⟩, ?_⟩, List.pairwise_cons.mpr ⟨?_, sorted⟩⟩
      · intro lexeme member
        have bound := bounds lexeme member
        omega
      · intro lexeme member
        have bound := bounds lexeme member
        exact Nat.lt_of_lt_of_le high bound.1

/-- The tokens of a text up to its end or to the first place where no token starts. -/
def leadingTokens (source : String) : List Token :=
  (Cursor.ofText source).feed.lexemes.map Lexeme.token

/-- The place of a token tells which one it is, and is not the end of the text. -/
theorem index_of_start {source : String} {index : Nat} {token : Token}
    (here : (leadingTokens source)[index]? = some token) :
    token.start ≠ .behind source.toList ∧ ∀ index' token',
      (leadingTokens source)[index']? = some token' → token.start = token'.start →
      index = index' := by
  obtain ⟨bounds, sorted⟩ := (Cursor.IsIn.ofText source).feed_offsets
  have ordered := List.pairwise_iff_getElem.mp sorted
  rw [leadingTokens, List.getElem?_map, Option.map_eq_some_iff] at here
  obtain ⟨lexeme, here, rfl⟩ := here
  have bound := (bounds lexeme (List.mem_of_getElem? here)).2
  obtain ⟨inside, rfl⟩ := List.getElem?_eq_some_iff.mp here
  refine ⟨?_, ?_⟩
  · intro atEnd
    rw [atEnd] at bound
    simp [Position.behind] at bound
  · intro index' token' there same
    rw [leadingTokens, List.getElem?_map, Option.map_eq_some_iff] at there
    obtain ⟨lexeme', there, rfl⟩ := there
    obtain ⟨inside', rfl⟩ := List.getElem?_eq_some_iff.mp there
    have starts := congrArg Position.offset same
    rcases Nat.lt_trichotomy index index' with less | rfl | greater
    · exact absurd starts (Nat.ne_of_lt (ordered _ _ inside inside' less))
    · rfl
    · exact absurd starts.symm (Nat.ne_of_lt (ordered _ _ inside' inside greater))

/-! ## Messages -/

theorem Token.describe_getLast? (token : Token) : token.describe.toList.getLast? = some '\'' := by
  unfold Token.describe
  split
  · rw [String.toList_append, List.getLast?_append]
    rfl
  · rename_i fixed
    cases kind : token.kind <;> simp [kind, TokenKind.varies, TokenKind.label] at fixed ⊢

theorem message_says_end_iff {expected : Expected} {found : Option Token} {position : Position} :
    "got end of input".toList <:+
      (GrammarError.unexpected expected found position).report.message.toList ↔ found = none := by
  constructor
  · rintro ⟨before, message⟩
    cases found with
    | none => rfl
    | some token =>
      have last := congrArg List.getLast? message
      simp only [GrammarError.report, Option.map_some, Option.getD_some, String.toList_append,
        List.getLast?_append, token.describe_getLast?] at last
      simp at last
  · rintro rfl
    refine ⟨(expected.context ++ ": expected " ++ expected.label ++ ", ").toList, ?_⟩
    simp [GrammarError.report]

/-! ## Errors of programs -/

theorem Program.parse_eq_unexpected {source : String} {expected : Expected} {found : Option Token}
    {position : Position}
    (h : Program.parse source = .error (.grammatical (.unexpected expected found position))) :
    (Cursor.ofText source).feed.Guarded ∧ ∃ resume, Parser.program (Cursor.ofText source).feed =
      .error ⟨.grammatical (.unexpected expected found position), resume⟩ := by
  unfold Program.parse Cursor.parse at h
  generalize (Cursor.ofText source).feed = feed at h
  cases guarded : feed.guard with
  | error failure =>
    rw [guarded] at h
    obtain ⟨lexemes, ending⟩ := feed
    cases lexemes with
    | cons lexeme rest => cases guarded
    | nil =>
      cases ending with
      | finish cursor => cases guarded
      | fault error cursor =>
        cases guarded
        cases h
  | ok left =>
    obtain ⟨rfl, whole⟩ := Feed.guard_eq_ok_iff.mp guarded
    have goesOn : (Except.ok feed >>= Parser.program) = Parser.program feed := rfl
    rw [guarded, goesOn] at h
    cases read : Parser.program feed with
    | ok answer =>
      rw [read] at h
      cases h
    | error failure =>
      rw [read] at h
      obtain ⟨error, resume⟩ := failure
      cases h
      exact ⟨whole, resume, rfl⟩

theorem leadingTokens_proper (source : String) :
    ∀ token ∈ leadingTokens source, token.symbol.Proper := by
  intro token member
  obtain ⟨lexeme, inside, rfl⟩ := List.mem_map.mp member
  exact Cursor.spells_of_mem_feed inside

/-- What is known of a text that is refused at a token, or at the end if none is found: the tokens
    before can be completed to a program, and no program up to a bound has them and goes on like the
    text. -/
structure RefusedAt (source : String) (found : Option Token) (position : Position) (bound : Nat)
    (passed rest : List Token) : Prop where
  split : leadingTokens source = passed ++ rest
  head : rest.head? = found
  place : position = (found.map Token.start).getD (.behind source.toList)
  finished : rest = [] → tokenize source = .ok passed
  completed : ∃ phrase : ProgramPhrase, passed.map Token.symbol <+: phrase.symbols ∧
    ∀ symbol ∈ phrase.symbols, symbol.Proper
  excluded : ∀ (phrase : ProgramPhrase) (tail : List Symbol), phrase.symbols.length < bound →
    tail.head? = found.map Token.symbol → phrase.symbols ≠ passed.map Token.symbol ++ tail

section Refused

variable {source : String} {expected : Expected} {found : Option Token} {position : Position}
  (failed : Program.parse source = .error (.grammatical (.unexpected expected found position)))
include failed

theorem exists_refusedAt (bound : Nat) :
    ∃ passed rest, RefusedAt source found position bound passed rest := by
  have place := (Cursor.IsIn.ofText source).parse.2 _ failed
  obtain ⟨guarded, resume, read⟩ := Program.parse_eq_unexpected failed
  obtain ⟨passed, rest, split, guarded, same, ⟨phrase, more, derived, proper⟩, excluded⟩ :=
    exists_refused guarded read ⟨found, position, resume, rfl⟩
      (Nat.lt_of_lt_of_le (Nat.lt_succ_self _) (Nat.le_max_left _ bound))
  simp only [Feed.unexpected, Failure.mk.injEq, ParseError.grammatical.injEq,
    GrammarError.unexpected.injEq, true_and] at same
  obtain ⟨⟨rfl, placed⟩, -⟩ := same
  have symbols (lexemes : List Lexeme) : (lexemes.map Lexeme.token).map Token.symbol =
      lexemes.map fun lexeme => lexeme.token.symbol := List.map_map
  refine ⟨passed.map Lexeme.token, rest.map Lexeme.token, ?_, List.head?_map, ?_, ?_, ?_, ?_⟩
  · rw [leadingTokens, split, List.map_append]
  · cases rest with
    | nil => exact place.atEnd _ _ rfl
    | cons lexeme rest => exact placed.symm
  · intro empty
    obtain rfl := List.map_eq_nil_iff.mp empty
    refine Feed.tokens_eq_ok_iff.mpr ⟨guarded rfl, ?_⟩
    rw [split, List.append_nil]
  · refine ⟨phrase, ⟨more, by rw [derived, symbols]⟩, ?_⟩
    rw [derived, List.forall_mem_append, List.forall_mem_map]
    refine ⟨?_, proper⟩
    intro lexeme member
    apply leadingTokens_proper source
    rw [leadingTokens, split]
    exact List.mem_map_of_mem (List.mem_append_left _ member)
  · intro phrase tail short ahead
    rw [symbols]
    apply excluded phrase tail (Nat.lt_of_lt_of_le short (Nat.le_max_right _ _))
    rw [ahead, Option.map_map]
    rfl

/-- The error stands at the first token that cannot follow those before it. -/
theorem refused_at_token {index : Nat} {token : Token}
    (here : (leadingTokens source)[index]? = some token) (placed : token.start = position) :
    (∃ phrase : ProgramPhrase,
      ((leadingTokens source).take index).map Token.symbol <+: phrase.symbols ∧
        ∀ symbol ∈ phrase.symbols, symbol.Proper) ∧
    ∀ phrase : ProgramPhrase,
      ¬ ((leadingTokens source).take (index + 1)).map Token.symbol <+: phrase.symbols := by
  obtain ⟨notEnd, unique⟩ := index_of_start here
  have located {bound : Nat} {passed rest : List Token}
      (refused : RefusedAt source found position bound passed rest) :
      index = passed.length ∧ found = some token := by
    cases rest with
    | nil =>
      have place := refused.place
      rw [← refused.head, List.head?_nil, Option.map_none, Option.getD_none, ← placed] at place
      exact absurd place notEnd
    | cons first rest =>
      have there : (leadingTokens source)[passed.length]? = some first := by
        rw [refused.split]
        simp
      have place := refused.place
      rw [← refused.head, ← placed] at place
      obtain rfl := unique _ _ there place
      rw [there] at here
      exact ⟨rfl, refused.head.symm.trans here⟩
  refine ⟨?_, ?_⟩
  · obtain ⟨passed, rest, refused⟩ := exists_refusedAt failed 0
    rw [(located refused).1, refused.split, List.take_left]
    exact refused.completed
  · rintro phrase ⟨tail, derived⟩
    obtain ⟨passed, rest, refused⟩ := exists_refusedAt failed (phrase.symbols.length + 1)
    obtain ⟨rfl, rfl⟩ := located refused
    have next : (leadingTokens source).take (passed.length + 1) = passed ++ [token] := by
      rw [List.take_add_one, here, refused.split, List.take_left]
      rfl
    rw [next, List.map_append, List.append_assoc] at derived
    exact refused.excluded phrase _ (Nat.lt_succ_self _) rfl derived.symm

/-- At the end of the input all tokens can be completed, but are not complete. -/
theorem refused_at_end (atEnd : found = none) :
    ∃ tokens, tokenize source = .ok tokens ∧
      (∃ phrase : ProgramPhrase, tokens.map Token.symbol <+: phrase.symbols ∧
        tokens.map Token.symbol ≠ phrase.symbols ∧ ∀ symbol ∈ phrase.symbols, symbol.Proper) ∧
      ∀ phrase : ProgramPhrase, phrase.symbols ≠ tokens.map Token.symbol := by
  subst atEnd
  have whole {bound : Nat} {passed rest : List Token}
      (refused : RefusedAt source none position bound passed rest) :
      rest = [] ∧ leadingTokens source = passed := by
    obtain rfl := List.head?_eq_none_iff.mp refused.head
    exact ⟨rfl, by rw [refused.split, List.append_nil]⟩
  obtain ⟨passed, rest, refused⟩ := exists_refusedAt failed 0
  obtain ⟨rfl, rfl⟩ := whole refused
  have underivable (phrase : ProgramPhrase) :
      phrase.symbols ≠ (leadingTokens source).map Token.symbol := by
    obtain ⟨passed, rest, refused⟩ := exists_refusedAt failed (phrase.symbols.length + 1)
    obtain ⟨rfl, rfl⟩ := whole refused
    have excluded := refused.excluded phrase [] (Nat.lt_succ_self _) rfl
    rwa [List.append_nil] at excluded
  obtain ⟨phrase, start, proper⟩ := refused.completed
  exact ⟨_, refused.finished rfl, ⟨phrase, start, (underivable phrase).symm, proper⟩, underivable⟩

end Refused

/-- A program that is refused for its grammar, and not for the size of a number, is refused at its
    first token that cannot stand there: the tokens before it are the beginning of a program, and
    with the token they are not the beginning of any. The end of the input is reported where all
    tokens are the beginning of a longer program but do not make up one. The error stands nowhere
    else than at a token or at the end. -/
theorem Program.parse_refuses_first_offending {source : String} {error : ParseError}
    (failed : Program.parse source = .error error) (kind : error.report.kind = .grammatical)
    (other : ∀ text position, error ≠ .grammatical (.numberTooLarge text position)) :
    (∀ (index : Nat) (token : Token), (leadingTokens source)[index]? = some token →
      token.start = error.report.position →
      (∃ phrase : ProgramPhrase,
        ((leadingTokens source).take index).map Token.symbol <+: phrase.symbols ∧
          ∀ symbol ∈ phrase.symbols, symbol.Proper) ∧
      ∀ phrase : ProgramPhrase,
        ¬ ((leadingTokens source).take (index + 1)).map Token.symbol <+: phrase.symbols) ∧
    ("got end of input".toList <:+ error.report.message.toList →
      ∃ tokens, tokenize source = .ok tokens ∧
        (∃ phrase : ProgramPhrase, tokens.map Token.symbol <+: phrase.symbols ∧
          tokens.map Token.symbol ≠ phrase.symbols ∧ ∀ symbol ∈ phrase.symbols, symbol.Proper) ∧
        ∀ phrase : ProgramPhrase, phrase.symbols ≠ tokens.map Token.symbol) ∧
    ((∃ (index : Nat) (token : Token), (leadingTokens source)[index]? = some token ∧
        token.start = error.report.position) ∨
      "got end of input".toList <:+ error.report.message.toList) := by
  obtain ⟨expected, found, position, rfl⟩ :
      ∃ expected found position, error = .grammatical (.unexpected expected found position) := by
    cases error with
    | lexical error => cases error <;> cases kind
    | grammatical error =>
      cases error with
      | unexpected expected found position => exact ⟨expected, found, position, rfl⟩
      | numberTooLarge text position => exact absurd rfl (other text position)
  simp only [ParseError.report, message_says_end_iff]
  refine ⟨?_, refused_at_end failed, ?_⟩
  · intro index token here placed
    exact refused_at_token failed here placed
  · obtain ⟨passed, rest, refused⟩ := exists_refusedAt failed 0
    cases rest with
    | nil => exact .inr refused.head.symm
    | cons first rest =>
      refine .inl ⟨passed.length, first, ?_, ?_⟩
      · rw [refused.split]
        simp
      · have place := refused.place
        rw [← refused.head] at place
        exact place.symm

/-- An operand is missing behind an operator, and the body of a function is left open. -/
theorem Program.parse_refuses_first_offending_unfinished :
    (Program.parse "let a: string = (b + ;" = .error (.grammatical
        (.unexpected .operand (some ⟨.semicolon, ";", ⟨21, 1, 22⟩⟩) ⟨21, 1, 22⟩)) ∧
      (leadingTokens "let a: string = (b + ;")[8]? = some ⟨.semicolon, ";", ⟨21, 1, 22⟩⟩ ∧
      ∀ phrase : ProgramPhrase,
        ¬ ((leadingTokens "let a: string = (b + ;").take 9).map Token.symbol <+: phrase.symbols) ∧
    (Program.parse "function f(): number \x7b" = .error (.grammatical
        (.unexpected (.bodyEnd "f") none ⟨22, 1, 23⟩)) ∧
      ∃ tokens, tokenize "function f(): number \x7b" = .ok tokens ∧
        ∃ phrase : ProgramPhrase, tokens.map Token.symbol <+: phrase.symbols ∧
          tokens.map Token.symbol ≠ phrase.symbols) := by
  have operand : Program.parse "let a: string = (b + ;" = .error (.grammatical
      (.unexpected .operand (some ⟨.semicolon, ";", ⟨21, 1, 22⟩⟩) ⟨21, 1, 22⟩)) := by
    cbv
  have token : (leadingTokens "let a: string = (b + ;")[8]? =
      some ⟨.semicolon, ";", ⟨21, 1, 22⟩⟩ := by
    cbv
  have body : Program.parse "function f(): number \x7b" = .error (.grammatical
      (.unexpected (.bodyEnd "f") none ⟨22, 1, 23⟩)) := by
    cbv
  refine ⟨⟨operand, token, ?_⟩, body, ?_⟩
  · have refused := Program.parse_refuses_first_offending operand rfl (by simp)
    exact (refused.1 8 _ token rfl).2
  · have refused := Program.parse_refuses_first_offending body rfl (by simp)
    obtain ⟨tokens, tokenized, ⟨phrase, start, longer, -⟩, -⟩ :=
      refused.2.1 (message_says_end_iff.mpr rfl)
    exact ⟨tokens, tokenized, phrase, start, longer⟩

end TinyScript
