import TinyScript.Proofs.Concatenation
import TinyScript.Proofs.WellFormed

/-!
# What readers foresee

A reader of tokens *predicts* a language of rows of symbols if it never passes a token too many:
where it refuses the lookahead, the symbols that it has passed can be completed to a row of the
language. What it does depends on nothing but these symbols and on what it sees of the lookahead
behind them, so that another feed with the same beginning has the same fate.

Every reader of the grammar predicts the rows of symbols of its phrases. Nothing here asks for the
bound of a reader to be large enough.
-/

namespace TinyScript

variable {α β : Type}

/-! ## Feeds that look alike -/

/-- Feeds that differ in nothing that is seen of their lookaheads before they are passed. -/
structure Feed.Alike (feed feed' : Feed) : Prop where
  kind? : feed.kind? = feed'.kind?
  operator? : ∀ operators, feed.operator? operators = feed'.operator? operators

theorem Feed.Alike.refl (feed : Feed) : feed.Alike feed :=
  ⟨rfl, fun _ => rfl⟩

theorem Feed.kind?_eq_map (feed : Feed) : feed.kind? = feed.lookahead.map Symbol.kind := by
  simp [Feed.kind?, Feed.lookahead, Function.comp_def, Token.symbol]

theorem Feed.Alike.of_lookahead {feed feed' : Feed} (h : feed.lookahead = feed'.lookahead) :
    feed.Alike feed' := by
  refine ⟨?_, ?_⟩
  · rw [Feed.kind?_eq_map, Feed.kind?_eq_map, h]
  · intro operators
    rw [Feed.operator?, Feed.operator?, h]

/-- Where the same symbols follow, and what is behind them looks alike, feeds look alike. -/
theorem Feed.Passes.alike {feed feed' behind behind' : Feed} {symbols : List Symbol}
    (passed : feed.Passes symbols behind) (passed' : feed'.Passes symbols behind')
    (alike : behind.Alike behind') : feed.Alike feed' := by
  cases symbols with
  | nil =>
    obtain rfl : feed = behind := passed
    obtain rfl : feed' = behind' := passed'
    exact alike
  | cons symbol symbols => exact .of_lookahead (passed.lookahead.trans passed'.lookahead.symm)

namespace Parser

theorem bind_eq_error_iff {reader : Parser α} {more : α → Parser β} {feed : Feed}
    {failure : Failure} :
    (reader >>= more) feed = .error failure ↔ reader feed = .error failure ∨
      ∃ value mid, reader feed = .ok (value, mid) ∧ more value mid = .error failure := by
  change (reader feed >>= fun (value, mid) => more value mid) = _ ↔ _
  cases reader feed with
  | error failure => simp [bind, Except.bind]
  | ok answer =>
    obtain ⟨value, mid⟩ := answer
    simp [bind, Except.bind]

theorem bind_of_ok {reader : Parser α} {feed mid : Feed} {value : α}
    (h : reader feed = .ok (value, mid)) (more : α → Parser β) :
    (reader >>= more) feed = more value mid := by
  change (reader feed >>= fun (value, mid) => more value mid) = _
  rw [h]
  rfl

theorem discard_bind (reader : Parser α) (more : PUnit → Parser β) :
    (discard reader >>= more) = (reader >>= fun _ => more ⟨⟩) := by
  funext feed
  change ((reader feed >>= fun (_, mid) => .ok (PUnit.unit, mid)) >>= fun (value, mid) =>
    more value mid) = (reader feed >>= fun (_, mid) => more ⟨⟩ mid)
  cases reader feed <;> rfl

theorem eat_of_other {kind : TokenKind} {feed : Feed} (other : feed.kind? ≠ some kind) :
    eat kind feed = .error (feed.unexpected (.token kind)) := by
  cases lexemes : feed.lexemes with
  | nil => simp [eat, lexemes]
  | cons lexeme rest =>
    have kinds : lexeme.token.kind ≠ kind := by simpa [Feed.kind?, lexemes] using other
    simp [eat, lexemes, kinds]

end Parser

/-! ## Predicting a language -/

/-- A failure at a lookahead that is not as expected. -/
def Failure.Expects (failure : Failure) (expected : Expected) : Prop :=
  ∃ found position resume, failure = ⟨.grammatical (.unexpected expected found position), resume⟩

/-- A token of the expected kind is refused for what follows it only. -/
theorem Parser.eat_refuses {kind : TokenKind} {feed : Feed} {failure : Failure}
    {expected : Expected} (refused : Parser.eat kind feed = .error failure)
    (expects : failure.Expects expected) :
    feed.kind? ≠ some kind ∧ expected = .token kind ∧ feed.unexpected expected = failure := by
  by_cases same : feed.kind? = some kind
  · obtain ⟨found, position, resume, rfl⟩ := expects
    obtain ⟨lexemes, ending⟩ := feed
    cases lexemes with
    | nil => simp [Feed.kind?] at same
    | cons lexeme rest =>
      have kinds : lexeme.token.kind = kind := by simpa [Feed.kind?] using same
      simp only [Parser.eat, kinds, if_true] at refused
      cases rest with
      | nil => cases ending <;> simp [Feed.guard, bind, Except.bind, pure, Except.pure] at refused
      | cons next rest => simp [Feed.guard, bind, Except.bind, pure, Except.pure] at refused
  · rw [Parser.eat_of_other same] at refused
    cases refused
    obtain ⟨found, position, resume, same⟩ := expects
    cases same
    exact ⟨‹_›, rfl, rfl⟩

/-- What a reader does behind the given symbols is the same for all feeds that look alike there. -/
def Parser.Settles (reader : Parser α) (symbols : List Symbol) (mid : Feed)
    (outcome : Feed → Except Failure (α × Feed)) : Prop :=
  ∀ ⦃feed' mid' : Feed⦄, feed'.Passes symbols mid' → mid.Alike mid' → reader feed' = outcome mid'

/-- A language with a row of symbols that are spelled according to their kinds. -/
class Completable (language : Language Symbol) : Prop where
  exists_proper : ∃ symbols ∈ language, ∀ symbol ∈ symbols, symbol.Proper

/-- What a reader passes on a feed belongs to a language, or can be completed to a row of it by
    symbols that are spelled according to their kinds. -/
structure Parser.PredictsAt (reader : Parser α) (feed : Feed) (language : Language Symbol) :
    Prop where
  accepts : ∀ {value behind}, reader feed = .ok (value, behind) → ∃ symbols ∈ language,
    feed.Passes symbols behind ∧ reader.Settles symbols behind fun behind => .ok (value, behind)
  refuses : ∀ {failure expected}, reader feed = .error failure → failure.Expects expected →
    ∃ symbols more mid, symbols ++ more ∈ language ∧ (∀ symbol ∈ more, symbol.Proper) ∧
      feed.Passes symbols mid ∧ mid.unexpected expected = failure ∧
      reader.Settles symbols mid fun mid => .error (mid.unexpected expected)

namespace Parser

variable {reader : Parser α} {feed : Feed} {language first rest : Language Symbol}

theorem Settles.bind {more : α → Parser β} {value : α} {symbols symbols' : List Symbol}
    {mid last : Feed} {outcome : Feed → Except Failure (β × Feed)}
    (h : reader.Settles symbols mid fun behind => .ok (value, behind))
    (h' : (more value).Settles symbols' last outcome) (passed : mid.Passes symbols' last) :
    (reader >>= more).Settles (symbols ++ symbols') last outcome := by
  intro feed' last' passed' alike
  obtain ⟨mid', front, back⟩ := Feed.passes_append.mp passed'
  rw [bind_of_ok (h front (passed.alike back alike))]
  exact h' back alike

theorem Settles.bind_error {more : α → Parser β} {symbols : List Symbol} {mid : Feed}
    {expected : Expected}
    (h : reader.Settles symbols mid fun mid => .error (mid.unexpected expected)) :
    (reader >>= more).Settles symbols mid fun mid => .error (mid.unexpected expected) := by
  intro feed' mid' passed alike
  exact bind_eq_error_iff.mpr (.inl (h passed alike))

theorem PredictsAt.mono (h : reader.PredictsAt feed first)
    (le : ∀ symbols ∈ first, symbols ∈ language) : reader.PredictsAt feed language where
  accepts read := by
    obtain ⟨symbols, member, passed, settles⟩ := h.accepts read
    exact ⟨symbols, le _ member, passed, settles⟩
  refuses refused expects := by
    obtain ⟨symbols, more, mid, member, proper, passed, same, settles⟩ := h.refuses refused expects
    exact ⟨symbols, more, mid, le _ member, proper, passed, same, settles⟩

/-- Readers that do the same on all feeds that look like a given one. -/
theorem PredictsAt.congr {reader' : Parser α} (h : reader.PredictsAt feed language)
    (same : ∀ feed', feed.Alike feed' → reader' feed' = reader feed') :
    reader'.PredictsAt feed language where
  accepts read := by
    rw [same feed (.refl feed)] at read
    obtain ⟨symbols, member, passed, settles⟩ := h.accepts read
    refine ⟨symbols, member, passed, ?_⟩
    intro feed' behind' passed' alike
    rw [same feed' (passed.alike passed' alike), settles passed' alike]
  refuses refused expects := by
    rw [same feed (.refl feed)] at refused
    obtain ⟨symbols, more, mid, member, proper, passed, failed, settles⟩ :=
      h.refuses refused expects
    refine ⟨symbols, more, mid, member, proper, passed, failed, ?_⟩
    intro feed' mid' passed' alike
    rw [same feed' (passed.alike passed' alike), settles passed' alike]

theorem predicts_pure {value : α} (h : [] ∈ language) :
    (pure value : Parser α).PredictsAt feed language where
  accepts read := by
    obtain ⟨rfl, rfl⟩ := pure_eq_ok_iff.mp read
    refine ⟨[], h, rfl, ?_⟩
    rintro feed' _ rfl alike
    rfl
  refuses refused expects := by cases refused

theorem predicts_unexpected (expected : Expected) [completable : Completable language] :
    (unexpected expected : Parser α).PredictsAt feed language where
  accepts read := absurd read unexpected_ne_ok
  refuses refused expects := by
    obtain ⟨word, member, proper⟩ := completable.exists_proper
    cases refused
    obtain ⟨found, position, resume, same⟩ := expects
    cases same
    refine ⟨[], word, feed, member, proper, rfl, rfl, ?_⟩
    rintro feed' _ rfl alike
    rfl

theorem PredictsAt.bind {more : α → Parser β} [completable : Completable rest]
    (h : reader.PredictsAt feed first) (goesOn : ∀ value mid, (more value).PredictsAt mid rest) :
    (reader >>= more).PredictsAt feed (first * rest) where
  accepts read := by
    obtain ⟨value, mid, read, readMore⟩ := bind_eq_ok_iff.mp read
    obtain ⟨symbols, member, passed, settles⟩ := h.accepts read
    obtain ⟨symbols', member', passed', settles'⟩ := (goesOn value mid).accepts readMore
    exact ⟨symbols ++ symbols', Language.append_mem_mul member member',
      Feed.passes_append.mpr ⟨mid, passed, passed'⟩, settles.bind settles' passed'⟩
  refuses refused expects := by
    rcases bind_eq_error_iff.mp refused with refused | ⟨value, mid, read, refused⟩
    · obtain ⟨symbols, more, mid, member, proper, passed, same, settles⟩ :=
        h.refuses refused expects
      obtain ⟨word, member', proper'⟩ := completable.exists_proper
      refine ⟨symbols, more ++ word, mid, ?_, ?_, passed, same, settles.bind_error⟩
      · rw [← List.append_assoc]
        exact Language.append_mem_mul member member'
      · exact List.forall_mem_append.mpr ⟨proper, proper'⟩
    · obtain ⟨symbols, member, passed, settles⟩ := h.accepts read
      obtain ⟨symbols', more, last, member', proper, passed', same, settles'⟩ :=
        (goesOn value mid).refuses refused expects
      refine ⟨symbols ++ symbols', more, last, ?_, proper,
        Feed.passes_append.mpr ⟨mid, passed, passed'⟩, same, settles.bind settles' passed'⟩
      rw [List.append_assoc]
      exact Language.append_mem_mul member member'

/-- Passing a token other than a number, whose text may matter later but not its place. -/
theorem predicts_eat_bind {kind : TokenKind} (other : kind ≠ .number) {more : Token → Parser α}
    [completable : Completable (first * rest)]
    (byText : ∀ token token' : Token, token.text = token'.text → more token = more token')
    (fits : ∀ token mid, eat kind feed = .ok (token, mid) → [⟨kind, token.text⟩] ∈ first)
    (goesOn : ∀ token mid, (more token).PredictsAt mid rest) :
    (eat kind >>= more).PredictsAt feed (first * rest) := by
  have range (text : String) : (Symbol.mk kind text).InRange := Symbol.inRange_of_kind other
  have settles {token : Token} {symbols : List Symbol} {last : Feed}
      {outcome : Feed → Except Failure (α × Feed)} (h : (more token).Settles symbols last outcome) :
      (eat kind >>= more).Settles (⟨kind, token.text⟩ :: symbols) last outcome := by
    rintro feed' last' ⟨token', mid', eaten, text, -, passed⟩ alike
    rw [bind_of_ok eaten, byText token' token text]
    exact h passed alike
  refine ⟨?_, ?_⟩
  · intro value behind read
    obtain ⟨token, mid, eaten, readMore⟩ := bind_eq_ok_iff.mp read
    obtain ⟨symbols, member, passed, later⟩ := (goesOn token mid).accepts readMore
    exact ⟨⟨kind, token.text⟩ :: symbols, Language.append_mem_mul (fits token mid eaten) member,
      ⟨token, mid, eaten, rfl, range _, passed⟩, settles later⟩
  · intro failure expected refused expects
    rcases bind_eq_error_iff.mp refused with refused | ⟨token, mid, eaten, refused⟩
    · obtain ⟨kinds, rfl, same⟩ := eat_refuses refused expects
      obtain ⟨word, member, proper⟩ := completable.exists_proper
      refine ⟨[], word, feed, member, proper, rfl, same, ?_⟩
      rintro feed' _ rfl alike
      rw [alike.kind?] at kinds
      exact bind_eq_error_iff.mpr (.inl (eat_of_other kinds))
    · obtain ⟨symbols, more, last, member, proper, passed, same, later⟩ :=
        (goesOn token mid).refuses refused expects
      exact ⟨⟨kind, token.text⟩ :: symbols, more, last,
        Language.append_mem_mul (a := [⟨kind, token.text⟩]) (fits token mid eaten) member, proper,
        ⟨token, mid, eaten, rfl, range _, passed⟩, same, settles later⟩

theorem predicts_check (kind : TokenKind) {more : Bool → Parser α}
    (h : (more (feed.kind? = some kind)).PredictsAt feed language) :
    (check kind >>= more).PredictsAt feed language := by
  apply h.congr
  intro feed' alike
  rw [check_bind, alike.kind?]

theorem predicts_operator? (operators : List Operator) {more : Option Operator → Parser α}
    (h : (more (feed.operator? operators)).PredictsAt feed language) :
    (operator? operators >>= more).PredictsAt feed language := by
  apply h.congr
  intro feed' alike
  rw [operator?_bind, alike.operator?]

/-- Going on by the kind of the lookahead. -/
theorem predicts_peek {more : Option Token → Parser α}
    (byKind : ∀ token token' : Option Token, token.map Token.kind = token'.map Token.kind →
      more token = more token')
    (h : (more (feed.lexemes.head?.map Lexeme.token)).PredictsAt feed language) :
    (peek >>= more).PredictsAt feed language := by
  apply h.congr
  intro feed' alike
  rw [peek_bind, byKind _ _ alike.kind?]

end Parser

/-! ## Languages of phrases -/

/-- The rows of symbols of the phrases of a sort. -/
def phrases (symbols : β → List Symbol) : Language Symbol :=
  Set.range symbols

theorem mem_phrases (symbols : β → List Symbol) (phrase : β) : symbols phrase ∈ phrases symbols :=
  Set.mem_range_self phrase

/-- The rows of one symbol of a kind. -/
abbrev terminals (kind : TokenKind) : Language Symbol :=
  phrases fun terminal : Terminal kind => [terminal.symbol]

/-- A text that is spelled according to a kind. -/
def TokenKind.sample : TokenKind → String
  | number => "0"
  | string => "\"\""
  | identifier => "x"
  | varKeyword => "let"
  | functionKeyword => "function"
  | returnKeyword => "return"
  | typeKeyword => "string"
  | assign => "="
  | operator => "+"
  | lParen => "("
  | rParen => ")"
  | lBrace => "\x7b"
  | rBrace => "\x7d"
  | lBracket => "["
  | rBracket => "]"
  | semicolon => ";"
  | colon => ":"
  | comma => ","

theorem TokenKind.sample_proper (kind : TokenKind) : (Symbol.mk kind kind.sample).Proper := by
  cases kind with
  | number => exact .number (by decide) (by simp [TokenKind.sample])
  | string => exact .string (by decide : isQuote '"' = true) (List.not_mem_nil)
  | identifier => exact .ofWord (by decide : isWord "x".toList = true)
  | varKeyword => exact .ofWord (by decide : isWord "let".toList = true)
  | functionKeyword => exact .ofWord (by decide : isWord "function".toList = true)
  | returnKeyword => exact .ofWord (by decide : isWord "return".toList = true)
  | typeKeyword => exact .ofWord (by decide : isWord "string".toList = true)
  | _ => exact .symbol rfl

instance (kind : TokenKind) : Completable (terminals kind) :=
  ⟨[⟨kind, kind.sample⟩], ⟨⟨kind.sample⟩, rfl⟩, by simp [TokenKind.sample_proper]⟩

instance : Completable 1 :=
  ⟨[], Language.nil_mem_one, by simp⟩

theorem completable_of_nil {symbols : β → List Symbol} (phrase : β) (h : symbols phrase = []) :
    Completable (phrases symbols) :=
  ⟨[], ⟨phrase, h⟩, by simp⟩

instance {operators : List Operator} {symbols : β → List Symbol} :
    Completable (phrases fun rest : List (Joined operators β) => joinedSymbols symbols rest) :=
  completable_of_nil [] rfl

instance {symbols : β → List Symbol} :
    Completable (phrases fun part : Option β => part.elim [] symbols) :=
  completable_of_nil none rfl

instance (operator : Operator) : Completable (phrases fun _ : Unit => [operator.terminal]) := by
  refine ⟨[operator.terminal], ⟨(), rfl⟩, List.forall_mem_singleton.mpr ?_⟩
  cases operator <;> exact .symbol rfl

instance {first rest : Language Symbol} [Completable first] [Completable rest] :
    Completable (first * rest) := by
  obtain ⟨word, member, proper⟩ := ‹Completable first›.exists_proper
  obtain ⟨word', member', proper'⟩ := ‹Completable rest›.exists_proper
  exact ⟨word ++ word', Language.append_mem_mul member member',
    List.forall_mem_append.mpr ⟨proper, proper'⟩⟩

/-! ## Expressions -/

/-- A name, as a literal, a factor, a term and an expression. -/
def sampleName : LiteralPhrase :=
  .identifier ⟨TokenKind.identifier.sample⟩

theorem completable_of_name {symbols : β → List Symbol} (phrase : β)
    (h : symbols phrase = [sampleName.symbol]) : Completable (phrases symbols) :=
  ⟨[⟨.identifier, TokenKind.identifier.sample⟩], ⟨phrase, h⟩, by simp [TokenKind.sample_proper]⟩

instance : Completable (phrases fun phrase : LiteralPhrase => [phrase.symbol]) :=
  completable_of_name sampleName rfl

instance : Completable (phrases FactorPhrase.symbols) :=
  completable_of_name (FactorPhrase.literal sampleName) rfl

instance : Completable (phrases TermPhrase.symbols) :=
  completable_of_name (TermPhrase.mk (FactorPhrase.literal sampleName) []) rfl

instance : Completable (phrases ExpressionPhrase.symbols) :=
  completable_of_name
    (ExpressionPhrase.mk (TermPhrase.mk (FactorPhrase.literal sampleName) []) []) rfl

/-- The kinds of literals. -/
def literalKinds : List TokenKind := [.number, .string, .identifier]

theorem literal_of_other {feed : Feed} (other : ∀ kind ∈ literalKinds, feed.kind? ≠ some kind) :
    Parser.literal feed = .error (feed.unexpected .operand) := by
  rw [Parser.literal, Parser.peek_bind, ← Feed.kind?]
  generalize feed.kind? = kind at other
  split
  · exact absurd rfl (other .number (by decide))
  · exact absurd rfl (other .string (by decide))
  · exact absurd rfl (other .identifier (by decide))
  · rfl

/-- A literal is refused for its size or for what follows it only. -/
theorem literal_refuses {feed : Feed} {failure : Failure} {expected : Expected}
    (refused : Parser.literal feed = .error failure) (expects : failure.Expects expected) :
    ∀ kind ∈ literalKinds, feed.kind? ≠ some kind := by
  rw [Parser.literal, Parser.peek_bind, ← Feed.kind?] at refused
  generalize found : feed.kind? = kind at refused
  split at refused
  · rcases Parser.bind_eq_error_iff.mp refused with refused | ⟨token, mid, -, refused⟩
    · exact absurd found (Parser.eat_refuses refused expects).1
    · obtain ⟨_, position, resume, rfl⟩ := expects
      cases number : Binary64.ofDigits? token.text.toList <;> rw [number] at refused <;>
        cases refused
  · rcases Parser.bind_eq_error_iff.mp refused with refused | ⟨token, mid, -, refused⟩
    · exact absurd found (Parser.eat_refuses refused expects).1
    · cases refused
  · rcases Parser.bind_eq_error_iff.mp refused with refused | ⟨token, mid, -, refused⟩
    · exact absurd found (Parser.eat_refuses refused expects).1
    · cases refused
  · rintro kind member rfl
    simp_all [literalKinds]

theorem predicts_literal {feed : Feed} :
    Parser.literal.PredictsAt feed (phrases fun phrase : LiteralPhrase => [phrase.symbol]) where
  accepts read := by
    obtain ⟨phrase, passed, rfl⟩ := literal_eq_ok_iff.mp read
    refine ⟨[phrase.symbol], mem_phrases _ phrase, passed, ?_⟩
    intro feed' behind' passed' alike
    exact literal_eq_ok_iff.mpr ⟨phrase, passed', rfl⟩
  refuses refused expects := by
    have other := literal_refuses refused expects
    rw [literal_of_other other] at refused
    cases refused
    obtain ⟨found, position, resume, same⟩ := expects
    cases same
    refine ⟨[], [sampleName.symbol], feed, mem_phrases _ sampleName,
      List.forall_mem_singleton.mpr TokenKind.identifier.sample_proper, rfl, rfl, ?_⟩
    rintro feed' _ rfl alike
    exact literal_of_other (by rwa [← alike.kind?])

namespace Parser

/-- Passing a token whose text does not matter. -/
theorem predicts_discard_eat {kind : TokenKind} (other : kind ≠ .number) {feed : Feed}
    {rest : Language Symbol} [Completable rest] {more : PUnit → Parser α}
    (goesOn : ∀ mid, (more ⟨⟩).PredictsAt mid rest) :
    (discard (eat kind) >>= more).PredictsAt feed (terminals kind * rest) := by
  rw [discard_bind]
  refine predicts_eat_bind other (fun _ _ _ => rfl) ?_ fun _ => goesOn
  intro token mid _
  exact mem_phrases _ (⟨token.text⟩ : Terminal kind)

/-- Passing a token whose text matters. -/
theorem predicts_eat {kind : TokenKind} (other : kind ≠ .number) {feed : Feed}
    {rest : Language Symbol} [Completable rest] {more : Token → Parser α}
    (byText : ∀ token token' : Token, token.text = token'.text → more token = more token')
    (goesOn : ∀ token mid, (more token).PredictsAt mid rest) :
    (eat kind >>= more).PredictsAt feed (terminals kind * rest) := by
  refine predicts_eat_bind other byText ?_ goesOn
  intro token mid _
  exact mem_phrases _ (⟨token.text⟩ : Terminal kind)

theorem predicts_one {feed : Feed} (value : α) : (pure value : Parser α).PredictsAt feed 1 :=
  predicts_pure Language.nil_mem_one

end Parser

open TinyScript.Parser

theorem predicts_factor {inner : Parser Expression}
    (h : ∀ feed, inner.PredictsAt feed (phrases ExpressionPhrase.symbols)) (feed : Feed) :
    (factor inner).PredictsAt feed (phrases FactorPhrase.symbols) := by
  apply predicts_check
  by_cases opens : feed.kind? = some .lParen
  · rw [decide_eq_true opens, if_pos rfl]
    refine PredictsAt.mono (predicts_discard_eat (by decide) fun mid => (h mid).bind
      fun expression mid => predicts_discard_eat (by decide) fun mid => predicts_one _) ?_
    rintro _ ⟨_, ⟨left, rfl⟩, _, ⟨_, ⟨inner, rfl⟩, _, ⟨_, ⟨right, rfl⟩, _, rfl, rfl⟩, rfl⟩, rfl⟩
    exact mem_phrases _ (FactorPhrase.parentheses left inner right)
  · rw [decide_eq_false opens]
    apply predicts_literal.mono
    rintro _ ⟨literal, rfl⟩
    exact mem_phrases _ (FactorPhrase.literal literal)

section Chain

variable {operators : List Operator} {operand : Parser Expression} {symbols : β → List Symbol}
  [Completable (phrases symbols)]
  (h : ∀ feed, operand.PredictsAt feed (phrases symbols))
include h

theorem predicts_operations (rounds : Nat) (left : Expression) (feed : Feed) :
    (operations operators operand rounds left).PredictsAt feed
      (phrases fun rest : List (Joined operators β) => joinedSymbols symbols rest) := by
  induction rounds generalizing left feed with
  | zero => exact predicts_pure (mem_phrases _ [])
  | succ rounds ih =>
    apply predicts_operator?
    cases found : feed.operator? operators with
    | none => exact predicts_pure (mem_phrases _ [])
    | some operator =>
      obtain ⟨allowed, ahead⟩ := Feed.operator?_eq_some_iff.mp found
      have step : (discard (eat .operator) >>= fun _ => operand >>= fun right =>
          operations operators operand rounds (.binary operator left right)).PredictsAt feed
          (phrases (fun _ : Unit => [operator.terminal]) * (phrases symbols *
            phrases fun rest : List (Joined operators β) => joinedSymbols symbols rest)) := by
        rw [discard_bind]
        refine predicts_eat_bind (by decide) (fun _ _ _ => rfl) ?_
          fun _ mid => (h mid).bind fun right mid => ih _ mid
        intro token mid eaten
        rw [eat_lookahead eaten, Option.some.injEq] at ahead
        rw [ahead]
        exact mem_phrases _ ()
      apply step.mono
      rintro _ ⟨_, ⟨-, rfl⟩, _, ⟨_, ⟨phrase, rfl⟩, _, ⟨rest, rfl⟩, rfl⟩, rfl⟩
      exact ⟨⟨operator, allowed, phrase⟩ :: rest, joinedSymbols_cons symbols _ rest⟩

theorem predicts_chain (bound : Nat) (feed : Feed) :
    (chain bound operators operand).PredictsAt feed (phrases symbols *
      phrases fun rest : List (Joined operators β) => joinedSymbols symbols rest) :=
  (h feed).bind fun left mid => predicts_operations h bound left mid

end Chain

theorem predicts_expression (bound : Nat) (feed : Feed) :
    (expression bound).PredictsAt feed (phrases ExpressionPhrase.symbols) := by
  induction bound generalizing feed with
  | zero => exact predicts_unexpected .operand
  | succ bound ih =>
    have terms (feed : Feed) : (chain bound productOperators (factor (expression bound))).PredictsAt
        feed (phrases TermPhrase.symbols) := by
      apply (predicts_chain (predicts_factor ih) bound feed).mono
      rintro _ ⟨_, ⟨first, rfl⟩, _, ⟨rest, rfl⟩, rfl⟩
      exact ⟨.mk first rest, TermPhrase.symbols_mk first rest⟩
    apply (predicts_chain terms bound feed).mono
    rintro _ ⟨_, ⟨first, rfl⟩, _, ⟨rest, rfl⟩, rfl⟩
    exact ⟨.mk first rest, ExpressionPhrase.symbols_mk first rest⟩

/-! ## Statements -/

theorem predicts_variableDeclaration (bound : Nat) (feed : Feed) :
    (variableDeclaration bound).PredictsAt feed (phrases VariablePhrase.symbols) := by
  refine PredictsAt.mono (predicts_discard_eat (by decide) fun _ => predicts_eat (by decide) ?_
    fun name _ => predicts_discard_eat (by decide) fun _ => predicts_eat (by decide) ?_
    fun typeName _ => predicts_discard_eat (by decide) fun mid =>
    (predicts_expression bound mid).bind fun value _ =>
    predicts_discard_eat (by decide) fun _ => predicts_one _) ?_
  · intro token token' same
    rw [same]
  · intro token token' same
    rw [same]
  · rintro _ ⟨_, ⟨keyword, rfl⟩, _, ⟨_, ⟨name, rfl⟩, _, ⟨_, ⟨colon, rfl⟩, _, ⟨_, ⟨typeName, rfl⟩, _,
      ⟨_, ⟨assign, rfl⟩, _, ⟨_, ⟨value, rfl⟩, _, ⟨_, ⟨semicolon, rfl⟩, _, rfl, rfl⟩, rfl⟩, rfl⟩,
      rfl⟩, rfl⟩, rfl⟩, rfl⟩
    exact ⟨⟨keyword, name, colon, typeName, assign, value, semicolon⟩, by
      simp [VariablePhrase.symbols]⟩

theorem predicts_returnStatement (bound : Nat) (feed : Feed) :
    (returnStatement bound).PredictsAt feed (phrases ReturnPhrase.symbols) := by
  have parts : (returnStatement bound).PredictsAt feed (terminals .returnKeyword *
      (phrases (fun argument : Option ExpressionPhrase =>
        argument.elim [] ExpressionPhrase.symbols) * terminals .semicolon)) := by
    refine predicts_discard_eat (by decide) fun mid => predicts_check _ ?_
    by_cases ends : mid.kind? = some .semicolon
    · rw [decide_eq_true ends, if_pos rfl]
      refine PredictsAt.mono (predicts_discard_eat (by decide) fun _ => predicts_one _) ?_
      rintro _ ⟨_, ⟨semicolon, rfl⟩, _, rfl, rfl⟩
      exact ⟨[], ⟨none, rfl⟩, _, ⟨semicolon, rfl⟩, rfl⟩
    · rw [decide_eq_false ends]
      refine PredictsAt.mono ((predicts_expression bound mid).bind
        fun argument _ => predicts_discard_eat (by decide) fun _ => predicts_one _) ?_
      rintro _ ⟨_, ⟨argument, rfl⟩, _, ⟨_, ⟨semicolon, rfl⟩, _, rfl, rfl⟩, rfl⟩
      exact ⟨_, ⟨some argument, rfl⟩, _, ⟨semicolon, rfl⟩, rfl⟩
  apply parts.mono
  rintro _ ⟨_, ⟨keyword, rfl⟩, _, ⟨_, ⟨argument, rfl⟩, _, ⟨semicolon, rfl⟩, rfl⟩, rfl⟩
  exact ⟨⟨keyword, argument, semicolon⟩, rfl⟩

theorem predicts_parameter (feed : Feed) :
    parameter.PredictsAt feed (phrases ParameterPhrase.symbols) := by
  refine PredictsAt.mono (predicts_eat (by decide) ?_ fun name _ => predicts_discard_eat (by decide)
    fun _ => predicts_eat (by decide) ?_ fun typeName _ => predicts_one _) ?_
  · intro token token' same
    rw [same]
  · intro token token' same
    rw [same]
  · rintro _ ⟨_, ⟨name, rfl⟩, _, ⟨_, ⟨colon, rfl⟩, _, ⟨_, ⟨typeName, rfl⟩, _, rfl, rfl⟩, rfl⟩, rfl⟩
    exact ⟨⟨name, colon, typeName⟩, rfl⟩

instance : Completable (phrases ParameterPhrase.symbols) :=
  ⟨[⟨.identifier, TokenKind.identifier.sample⟩, ⟨.colon, TokenKind.colon.sample⟩,
    ⟨.typeKeyword, TokenKind.typeKeyword.sample⟩], ⟨⟨⟨_⟩, ⟨_⟩, ⟨_⟩⟩, rfl⟩, by
      simp [TokenKind.sample_proper]⟩

instance : Completable (phrases moreSymbols) :=
  completable_of_nil [] rfl

theorem predicts_moreParameters (rounds : Nat) (feed : Feed) :
    (moreParameters rounds).PredictsAt feed (phrases moreSymbols) := by
  induction rounds generalizing feed with
  | zero => exact predicts_pure (mem_phrases _ [])
  | succ rounds ih =>
    apply predicts_check
    by_cases comma : feed.kind? = some .comma
    · rw [decide_eq_true comma, if_pos rfl]
      refine PredictsAt.mono (predicts_discard_eat (by decide) fun mid =>
        (predicts_parameter mid).bind fun parameter mid => (ih mid).bind fun more _ =>
        predicts_one _) ?_
      rintro _ ⟨_, ⟨comma, rfl⟩, _, ⟨_, ⟨parameter, rfl⟩, _, ⟨_, ⟨more, rfl⟩, _, rfl, rfl⟩, rfl⟩,
        rfl⟩
      exact ⟨(comma, parameter) :: more, by simp [moreSymbols]⟩
    · rw [decide_eq_false comma]
      exact predicts_pure (mem_phrases _ [])

theorem predicts_parameters (bound : Nat) (feed : Feed) :
    (parameters bound).PredictsAt feed (terminals .lParen *
      (phrases (fun list : Option ParametersPhrase => list.elim [] ParametersPhrase.symbols) *
        terminals .rParen)) := by
  refine predicts_discard_eat (by decide) fun mid => predicts_check _ ?_
  by_cases closes : mid.kind? = some .rParen
  · rw [decide_eq_true closes, if_pos rfl]
    refine PredictsAt.mono (predicts_discard_eat (by decide) fun _ => predicts_one _) ?_
    rintro _ ⟨_, ⟨right, rfl⟩, _, rfl, rfl⟩
    exact ⟨[], ⟨none, rfl⟩, _, ⟨right, rfl⟩, rfl⟩
  · rw [decide_eq_false closes]
    refine PredictsAt.mono ((predicts_parameter mid).bind
      fun first mid => (predicts_moreParameters bound mid).bind
      fun more _ => predicts_discard_eat (by decide) fun _ => predicts_one _) ?_
    rintro _ ⟨_, ⟨first, rfl⟩, _, ⟨_, ⟨more, rfl⟩, _, ⟨_, ⟨right, rfl⟩, _, rfl, rfl⟩, rfl⟩, rfl⟩
    exact ⟨_, ⟨some ⟨first, more⟩, rfl⟩, _, ⟨right, rfl⟩, by simp [ParametersPhrase.symbols]⟩

/-! ## Bodies -/

instance : Completable (phrases StatementPhrase.bodySymbols) :=
  completable_of_nil [] rfl

section Body

variable {statement : Parser Statement}
  (h : ∀ feed, statement.PredictsAt feed (phrases StatementPhrase.symbols))
include h

/-- A body goes on with a statement. -/
theorem predicts_cons {more : Parser (List Statement)} (feed : Feed)
    (h' : ∀ feed, more.PredictsAt feed (phrases StatementPhrase.bodySymbols)) :
    (do return (← statement) :: (← more)).PredictsAt feed
      (phrases StatementPhrase.bodySymbols) := by
  refine PredictsAt.mono ((h feed).bind fun first mid => (h' mid).bind fun others _ =>
    predicts_one _) ?_
  rintro _ ⟨_, ⟨first, rfl⟩, _, ⟨_, ⟨others, rfl⟩, _, rfl, rfl⟩, rfl⟩
  exact ⟨first :: others, by simp [StatementPhrase.bodySymbols]⟩

theorem predicts_statementsToBrace (owner : String) (rounds : Nat) (feed : Feed) :
    (statementsToBrace owner statement rounds).PredictsAt feed
      (phrases StatementPhrase.bodySymbols) := by
  induction rounds generalizing feed with
  | zero => exact predicts_pure (mem_phrases _ [])
  | succ rounds ih =>
    apply predicts_peek
    · intro token token' same
      cases token <;> cases token' <;> simp_all
    · cases feed.lexemes.head?.map Lexeme.token with
      | none => exact predicts_unexpected _
      | some token =>
        by_cases closes : token.kind = .rBrace
        · simp only [if_pos closes]
          exact predicts_pure (mem_phrases _ [])
        · simp only [if_neg closes]
          exact predicts_cons h feed ih

theorem predicts_statementsToEnd (rounds : Nat) (feed : Feed) :
    (statementsToEnd statement rounds).PredictsAt feed (phrases StatementPhrase.bodySymbols) := by
  induction rounds generalizing feed with
  | zero => exact predicts_pure (mem_phrases _ [])
  | succ rounds ih =>
    apply predicts_peek
    · intro token token' same
      cases token <;> cases token' <;> simp_all
    · cases feed.lexemes.head?.map Lexeme.token with
      | none => exact predicts_pure (mem_phrases _ [])
      | some token => exact predicts_cons h feed ih

theorem predicts_functionDeclaration (bound : Nat) (feed : Feed) :
    (functionDeclaration bound statement).PredictsAt feed (phrases StatementPhrase.symbols) := by
  have block (owner : String) (feed : Feed) : (block bound owner statement).PredictsAt feed
      (terminals .lBrace * (phrases StatementPhrase.bodySymbols * (terminals .rBrace * 1))) :=
    predicts_discard_eat (by decide) fun mid => (predicts_statementsToBrace h owner bound mid).bind
      fun body _ => predicts_discard_eat (by decide) fun _ => predicts_one _
  refine PredictsAt.mono (predicts_discard_eat (by decide) fun _ => predicts_eat (by decide) ?_
    fun name mid => (predicts_parameters bound mid).bind
    fun parameters _ => predicts_discard_eat (by decide) fun _ => predicts_eat (by decide) ?_
    fun returnType mid => (block name.text mid).bind fun body _ => predicts_one _) ?_
  · intro token token' same
    rw [same]
  · intro token token' same
    rw [same]
  · rintro _ ⟨_, ⟨keyword, rfl⟩, _, ⟨_, ⟨name, rfl⟩, _, ⟨_, ⟨_, ⟨left, rfl⟩, _, ⟨_, ⟨list, rfl⟩, _,
      ⟨right, rfl⟩, rfl⟩, rfl⟩, _, ⟨_, ⟨colon, rfl⟩, _, ⟨_, ⟨returnType, rfl⟩, _, ⟨_, ⟨_,
      ⟨opening, rfl⟩, _, ⟨_, ⟨body, rfl⟩, _, ⟨_, ⟨closing, rfl⟩, _, rfl, rfl⟩, rfl⟩, rfl⟩, _, rfl,
      rfl⟩, rfl⟩, rfl⟩, rfl⟩, rfl⟩, rfl⟩
    refine ⟨.functionDeclaration ⟨keyword, name, left, list, right, colon, returnType⟩ opening body
      closing, ?_⟩
    rw [function_symbols]
    simp

end Body

instance : Completable (phrases StatementPhrase.symbols) :=
  ⟨[⟨.returnKeyword, TokenKind.returnKeyword.sample⟩, ⟨.semicolon, TokenKind.semicolon.sample⟩],
    ⟨.returnStatement ⟨⟨_⟩, none, ⟨_⟩⟩, rfl⟩, by simp [TokenKind.sample_proper]⟩

theorem predicts_statement (bound : Nat) (feed : Feed) :
    (statement bound).PredictsAt feed (phrases StatementPhrase.symbols) := by
  induction bound generalizing feed with
  | zero => exact predicts_unexpected .statement
  | succ bound ih =>
    apply predicts_peek
    · intro token token' same
      rw [same]
    · generalize (feed.lexemes.head?.map Lexeme.token).map Token.kind = kind
      split
      · apply (predicts_variableDeclaration bound feed).mono
        rintro _ ⟨phrase, rfl⟩
        exact ⟨.variableDeclaration phrase, rfl⟩
      · exact predicts_functionDeclaration ih bound feed
      · apply (predicts_returnStatement bound feed).mono
        rintro _ ⟨phrase, rfl⟩
        exact ⟨.returnStatement phrase, rfl⟩
      · exact predicts_unexpected .statement

end TinyScript
