import TinyScript.Proofs.Grammar

/-!
# Readers and rules of the grammar

A reader of tokens *recognizes* a sort of phrases if it succeeds exactly by passing the symbols of
such a phrase, with nothing behind them that would go on with it, and then gives the phrase's tree.
One token of lookahead is enough for that, because what may follow a phrase never starts what may go
on in it.

Readers of what nests or repeats have a bound, and recognition is stated for feeds that are no
longer than it. The main result here is `expression_recognizes`.
-/

namespace TinyScript

variable {α β : Type}

namespace Parser

theorem bind_eq_ok_iff {reader : Parser α} {more : α → Parser β} {feed behind : Feed}
    {value : β} :
    (reader >>= more) feed = .ok (value, behind) ↔
      ∃ first mid, reader feed = .ok (first, mid) ∧ more first mid = .ok (value, behind) := by
  change (reader feed >>= fun (first, mid) => more first mid) = _ ↔ _
  cases reader feed with
  | error failure => simp [bind, Except.bind]
  | ok answer =>
    constructor
    · intro h
      exact ⟨answer.1, answer.2, rfl, h⟩
    · rintro ⟨first, mid, ⟨rfl⟩, h⟩
      exact h

theorem pure_eq_ok_iff {answer value : α} {feed behind : Feed} :
    (pure answer : Parser α) feed = .ok (value, behind) ↔ answer = value ∧ feed = behind := by
  change (Except.ok (answer, feed) : Except Failure _) = _ ↔ _
  simp

theorem discard_eq_ok_iff {reader : Parser α} {feed behind : Feed} {value : PUnit} :
    (discard reader) feed = .ok (value, behind) ↔ ∃ answer, reader feed = .ok (answer, behind) := by
  change (reader >>= fun _ => pure PUnit.unit) feed = _ ↔ _
  simp only [bind_eq_ok_iff, pure_eq_ok_iff, true_and]
  constructor
  · rintro ⟨answer, mid, read, rfl⟩
    exact ⟨answer, read⟩
  · rintro ⟨answer, read⟩
    exact ⟨answer, behind, read, rfl⟩

theorem peek_bind (more : Option Token → Parser α) (feed : Feed) :
    (peek >>= more) feed = more (feed.lexemes.head?.map Lexeme.token) feed := rfl

theorem unexpected_ne_ok {expected : Expected} {feed : Feed} {answer : α × Feed} :
    (unexpected expected : Parser α) feed ≠ .ok answer := by
  intro h
  cases h

end Parser

/-- The symbol of the lookahead. -/
def Feed.lookahead (feed : Feed) : Option Symbol :=
  feed.lexemes.head?.map fun lexeme => lexeme.token.symbol

/-- The lookahead is none of the operators. -/
def Feed.Stops (operators : List Operator) (feed : Feed) : Prop :=
  ∀ operator ∈ operators, feed.lookahead ≠ some operator.terminal

/-- Eating symbols one after the other leads from one feed to another, and the numbers among them
    are in range. -/
def Feed.Passes (feed : Feed) : List Symbol → Feed → Prop
  | [], behind => feed = behind
  | symbol :: symbols, behind => ∃ token mid, Parser.eat symbol.kind feed = .ok (token, mid) ∧
      token.text = symbol.text ∧ symbol.InRange ∧ mid.Passes symbols behind

theorem Feed.passes_nil {feed behind : Feed} : feed.Passes [] behind ↔ feed = behind := Iff.rfl

theorem Feed.Passes.refl (feed : Feed) : feed.Passes [] feed := rfl

theorem Feed.passes_append {feed behind : Feed} {first second : List Symbol} :
    feed.Passes (first ++ second) behind ↔
      ∃ mid, feed.Passes first mid ∧ mid.Passes second behind := by
  induction first generalizing feed with
  | nil => simp [Feed.Passes]
  | cons symbol symbols ih =>
    simp only [List.cons_append, Feed.Passes, ih]
    constructor
    · rintro ⟨token, next, eaten, text, range, mid, passed, rest⟩
      exact ⟨mid, ⟨token, next, eaten, text, range, passed⟩, rest⟩
    · rintro ⟨mid, ⟨token, next, eaten, text, range, passed⟩, rest⟩
      exact ⟨token, next, eaten, text, range, mid, passed, rest⟩

theorem Symbol.inRange_of_kind {symbol : Symbol} (h : symbol.kind ≠ .number) : symbol.InRange :=
  fun kind => absurd kind h

theorem Feed.passes_terminal {feed behind : Feed} {kind : TokenKind} {terminal : Terminal kind}
    {symbols : List Symbol} (h : kind ≠ .number) :
    feed.Passes (terminal.symbol :: symbols) behind ↔
      ∃ token mid, Parser.eat kind feed = .ok (token, mid) ∧ token.text = terminal.text ∧
        mid.Passes symbols behind := by
  have range : terminal.symbol.InRange := Symbol.inRange_of_kind h
  simp only [Feed.Passes, Terminal.symbol] at range ⊢
  simp only [range, true_and]

/-- Tokens are left, or the text ends as it should. -/
def Feed.Guarded (feed : Feed) : Prop :=
  feed.lexemes = [] → ∃ cursor, feed.ending = .finish cursor

theorem Feed.guard_eq_ok_iff {feed behind : Feed} :
    feed.guard = .ok behind ↔ feed = behind ∧ feed.Guarded := by
  obtain ⟨lexemes, ending⟩ := feed
  cases lexemes with
  | nil => cases ending <;> simp [Feed.guard, Feed.Guarded]
  | cons lexeme rest => simp [Feed.guard, Feed.Guarded]

namespace Parser

theorem eat_eq_ok_iff {kind : TokenKind} {feed behind : Feed} {token : Token} :
    eat kind feed = .ok (token, behind) ↔
      token.kind = kind ∧ (∃ cursor, feed.lexemes = ⟨token, cursor⟩ :: behind.lexemes) ∧
        behind.ending = feed.ending ∧ behind.Guarded := by
  obtain ⟨lexemes, ending⟩ := feed
  cases lexemes with
  | nil => simp [eat]
  | cons lexeme rest =>
    obtain ⟨found, cursor⟩ := lexeme
    simp only [eat]
    by_cases same : found.kind = kind
    · rw [if_pos same]
      constructor
      · intro h
        cases guarded : Feed.guard ⟨rest, ending⟩ with
        | error failure => rw [guarded] at h; cases h
        | ok left =>
          rw [guarded] at h
          obtain ⟨rfl, ok⟩ := Feed.guard_eq_ok_iff.mp guarded
          cases h
          exact ⟨same, ⟨cursor, rfl⟩, rfl, ok⟩
      · rintro ⟨-, ⟨cursor', lexemes⟩, ends, guarded⟩
        obtain ⟨lexemes', ending'⟩ := behind
        cases lexemes
        cases ends
        rw [Feed.guard_eq_ok_iff.mpr ⟨rfl, guarded⟩]
        rfl
    · rw [if_neg same]
      constructor
      · intro h
        cases h
      · rintro ⟨kind, ⟨cursor', lexemes⟩, -⟩
        cases lexemes
        exact absurd kind same

theorem eat_length {kind : TokenKind} {feed behind : Feed} {token : Token}
    (h : eat kind feed = .ok (token, behind)) :
    feed.lexemes.length = behind.lexemes.length + 1 := by
  obtain ⟨-, ⟨cursor, lexemes⟩, -⟩ := eat_eq_ok_iff.mp h
  rw [lexemes, List.length_cons]

theorem eat_lookahead {kind : TokenKind} {feed behind : Feed} {token : Token}
    (h : eat kind feed = .ok (token, behind)) : feed.lookahead = some ⟨kind, token.text⟩ := by
  obtain ⟨rfl, ⟨cursor, lexemes⟩, -⟩ := eat_eq_ok_iff.mp h
  rw [Feed.lookahead, lexemes]
  rfl

end Parser

theorem Feed.Passes.length {feed behind : Feed} {symbols : List Symbol}
    (h : feed.Passes symbols behind) :
    feed.lexemes.length = symbols.length + behind.lexemes.length := by
  induction symbols generalizing feed with
  | nil => rw [show feed = behind from h, List.length_nil, Nat.zero_add]
  | cons symbol symbols ih =>
    obtain ⟨token, mid, eaten, -, -, rest⟩ := h
    rw [Parser.eat_length eaten, ih rest, List.length_cons]
    omega

theorem Feed.Passes.length_lt {feed behind : Feed} {symbols : List Symbol}
    (h : feed.Passes symbols behind) (nonempty : symbols ≠ []) :
    behind.lexemes.length < feed.lexemes.length := by
  have passedLength := h.length
  have positive := List.length_pos_iff.mpr nonempty
  omega

theorem Feed.Passes.lookahead {feed behind : Feed} {symbol : Symbol} {symbols : List Symbol}
    (h : feed.Passes (symbol :: symbols) behind) : feed.lookahead = some symbol := by
  obtain ⟨token, mid, eaten, text, -⟩ := h
  rw [Parser.eat_lookahead eaten, text]

/-- The kind of the lookahead. -/
def Feed.kind? (feed : Feed) : Option TokenKind :=
  (feed.lexemes.head?.map Lexeme.token).map Token.kind

theorem Feed.Passes.of_eat {kind : TokenKind} (h : kind ≠ .number) {feed mid behind : Feed}
    {token : Token} {symbols : List Symbol} (eaten : Parser.eat kind feed = .ok (token, mid))
    (passed : mid.Passes symbols behind) :
    feed.Passes ((⟨token.text⟩ : Terminal kind).symbol :: symbols) behind :=
  (Feed.passes_terminal h).mpr ⟨token, mid, eaten, rfl, passed⟩

theorem Feed.stops_of_eat {kind : TokenKind} (h : kind ≠ .operator) {feed behind : Feed}
    {token : Token} (eaten : Parser.eat kind feed = .ok (token, behind))
    (operators : List Operator) : feed.Stops operators := by
  intro operator _
  rw [Parser.eat_lookahead eaten]
  simp [Operator.terminal, h]

namespace Parser

theorem eat_kind {kind : TokenKind} {feed behind : Feed} {token : Token}
    (h : eat kind feed = .ok (token, behind)) : feed.kind? = some kind := by
  obtain ⟨rfl, ⟨cursor, lexemes⟩, -⟩ := eat_eq_ok_iff.mp h
  rw [Feed.kind?, lexemes]
  rfl

theorem check_bind (kind : TokenKind) (more : Bool → Parser α) (feed : Feed) :
    (check kind >>= more) feed = more (feed.kind? = some kind) feed := by
  change more ((feed.lexemes.head?.map Lexeme.token).any (·.kind = kind)) feed = _
  cases lexemes : feed.lexemes with
  | nil => simp [Feed.kind?, lexemes]
  | cons lexeme rest => simp [Feed.kind?, lexemes]

end Parser

theorem Feed.Passes.kind? {feed behind : Feed} {symbol : Symbol} {symbols : List Symbol}
    (h : feed.Passes (symbol :: symbols) behind) : feed.kind? = some symbol.kind := by
  obtain ⟨token, mid, eaten, -⟩ := h
  exact Parser.eat_kind eaten

/-! ## Operators -/

theorem Operator.ofSymbol?_eq_some_iff {text : String} {operator : Operator} :
    Operator.ofSymbol? text = some operator ↔ text = operator.symbol := by
  constructor
  · intro h
    unfold Operator.ofSymbol? at h
    split at h <;> simp_all [Operator.symbol] <;> subst h <;> rfl
  · rintro rfl
    cases operator <;> rfl

theorem Operator.terminal_injective : Function.Injective Operator.terminal := by
  intro first second h
  cases first <;> cases second <;> first | rfl | (simp [Operator.terminal, Operator.symbol] at h)

/-- The lookahead as one of the operators. -/
def Feed.operator? (operators : List Operator) (feed : Feed) : Option Operator :=
  feed.lookahead.bind fun symbol =>
    if symbol.kind = .operator then (Operator.ofSymbol? symbol.text).filter (operators.contains ·)
    else none

theorem Feed.operator?_eq_some_iff {operators : List Operator} {feed : Feed}
    {operator : Operator} :
    feed.operator? operators = some operator ↔
      operator ∈ operators ∧ feed.lookahead = some operator.terminal := by
  cases found : feed.lookahead with
  | none => simp [Feed.operator?, found]
  | some symbol =>
    obtain ⟨kind, text⟩ := symbol
    by_cases same : kind = .operator
    · simp [Feed.operator?, found, same, Operator.ofSymbol?_eq_some_iff, Operator.terminal,
        and_comm]
    · simp [Feed.operator?, found, same, Operator.terminal]

theorem Feed.operator?_eq_none_iff {operators : List Operator} {feed : Feed} :
    feed.operator? operators = none ↔ feed.Stops operators := by
  rw [Option.eq_none_iff_forall_not_mem]
  constructor
  · intro h operator allowed found
    exact h operator (Feed.operator?_eq_some_iff.mpr ⟨allowed, found⟩)
  · intro h operator found
    obtain ⟨allowed, found⟩ := Feed.operator?_eq_some_iff.mp found
    exact h operator allowed found

theorem Parser.operator?_bind (operators : List Operator) (more : Option Operator → Parser α)
    (feed : Feed) :
    (Parser.operator? operators >>= more) feed = more (feed.operator? operators) feed := by
  have answer : Parser.operator? operators feed = .ok (feed.operator? operators, feed) := by
    rw [Parser.operator?, Parser.peek_bind]
    cases lexemes : feed.lexemes with
    | nil => simp [Feed.operator?, Feed.lookahead, lexemes]; rfl
    | cons lexeme rest =>
      simp only [Feed.operator?, Feed.lookahead, lexemes, List.head?_cons, Option.map_some,
        Option.bind_some, Token.symbol]
      split <;> rfl
  change (Parser.operator? operators feed >>= fun (first, mid) => more first mid) = _
  rw [answer]
  rfl

/-! ## Expressions -/

/-- A reader succeeds exactly by passing the symbols of a phrase that may end there, and gives the
    phrase's tree; on feeds up to a bound. -/
def Parser.Recognizes (reader : Parser α) (bound : Nat) (symbols : β → List Symbol) (tree : β → α)
    (ends : Feed → Prop) : Prop :=
  ∀ ⦃feed : Feed⦄, feed.lexemes.length ≤ bound → ∀ value behind,
    reader feed = .ok (value, behind) ↔
      ∃ phrase, feed.Passes (symbols phrase) behind ∧ tree phrase = value ∧ ends behind

theorem joinedSymbols_cons {operators : List Operator} (symbols : α → List Symbol)
    (link : Joined operators α) (rest : List (Joined operators α)) :
    joinedSymbols symbols (link :: rest) =
      link.operator.terminal :: (symbols link.operand ++ joinedSymbols symbols rest) := by
  simp [joinedSymbols]

section Chain

variable {operators tight : List Operator} {operand : Parser Expression} {bound : Nat}
  {symbols : β → List Symbol} {tree : β → Expression}

/-- The lookahead behind an operand: either an operator of the chain or what follows the chain. -/
theorem stops_before_joined {rest : List (Joined operators β)} {feed behind : Feed}
    (disjoint : ∀ operator ∈ operators, operator ∉ tight)
    (passed : feed.Passes (joinedSymbols symbols rest) behind)
    (ends : behind.Stops (operators ++ tight)) : feed.Stops tight := by
  intro operator member found
  cases rest with
  | nil =>
    obtain rfl : feed = behind := passed
    exact ends operator (List.mem_append_right _ member) found
  | cons link rest =>
    rw [joinedSymbols_cons] at passed
    rw [passed.lookahead, Option.some.injEq] at found
    rw [← Operator.terminal_injective found] at member
    exact disjoint _ link.allowed member

/-- A chain ends at once where no operator of it stands. -/
theorem joined_iff_of_stops {left value : Expression} {feed behind : Feed}
    (ready : feed.Stops tight) (stops : feed.Stops operators) :
    (left = value ∧ feed = behind) ↔
      ∃ rest : List (Joined operators β), feed.Passes (joinedSymbols symbols rest) behind ∧
        joinedTree tree left rest = value ∧ behind.Stops (operators ++ tight) := by
  constructor
  · rintro ⟨rfl, rfl⟩
    refine ⟨[], rfl, rfl, ?_⟩
    intro operator member
    rcases List.mem_append.mp member with member | member
    · exact stops operator member
    · exact ready operator member
  · rintro ⟨rest, passed, rfl, -⟩
    cases rest with
    | nil => exact ⟨rfl, passed⟩
    | cons link rest =>
      rw [joinedSymbols_cons] at passed
      exact absurd passed.lookahead (stops link.operator link.allowed)

theorem operations_eq_ok_iff (recognizes : operand.Recognizes bound symbols tree (Feed.Stops tight))
    (disjoint : ∀ operator ∈ operators, operator ∉ tight) (rounds : Nat) (left : Expression)
    {feed : Feed} (within : feed.lexemes.length ≤ rounds) (short : feed.lexemes.length ≤ bound)
    (ready : feed.Stops tight) (value : Expression) (behind : Feed) :
    Parser.operations operators operand rounds left feed = .ok (value, behind) ↔
      ∃ rest : List (Joined operators β), feed.Passes (joinedSymbols symbols rest) behind ∧
        joinedTree tree left rest = value ∧ behind.Stops (operators ++ tight) := by
  induction rounds generalizing left feed with
  | zero =>
    have empty : feed.lexemes = [] := List.length_eq_zero_iff.mp (by omega)
    have stops : feed.Stops operators := by
      intro operator _
      simp [Feed.lookahead, empty]
    rw [Parser.operations, Parser.pure_eq_ok_iff]
    exact joined_iff_of_stops ready stops
  | succ rounds ih =>
    rw [Parser.operations, Parser.operator?_bind]
    cases found : feed.operator? operators with
    | none =>
      rw [Parser.pure_eq_ok_iff]
      exact joined_iff_of_stops ready (Feed.operator?_eq_none_iff.mp found)
    | some operator =>
      obtain ⟨allowed, found⟩ := Feed.operator?_eq_some_iff.mp found
      simp only [Parser.bind_eq_ok_iff, Parser.discard_eq_ok_iff, exists_const]
      constructor
      · rintro ⟨mid, ⟨token, eaten⟩, operandValue, next, read, more⟩
        have eatenLength := Parser.eat_length eaten
        obtain ⟨phrase, passed, rfl, nextReady⟩ := (recognizes (by omega) _ _).mp read
        have passedLength := passed.length
        obtain ⟨rest, restPassed, rfl, ends⟩ :=
          (ih _ (by omega) (by omega) nextReady).mp more
        have text : token.text = operator.symbol := by
          rw [Parser.eat_lookahead eaten, Option.some.injEq] at found
          exact congrArg Symbol.text found
        refine ⟨⟨operator, allowed, phrase⟩ :: rest, ?_, rfl, ends⟩
        rw [joinedSymbols_cons]
        exact ⟨token, mid, eaten, text, Symbol.inRange_of_kind (by simp [Operator.terminal]),
          Feed.passes_append.mpr ⟨next, passed, restPassed⟩⟩
      · rintro ⟨rest, passed, rfl, ends⟩
        cases rest with
        | nil =>
          obtain rfl : feed = behind := passed
          exact absurd found (ends operator (List.mem_append_left _ allowed))
        | cons link rest =>
          rw [joinedSymbols_cons] at passed
          rw [passed.lookahead, Option.some.injEq] at found
          obtain rfl := Operator.terminal_injective found
          obtain ⟨token, mid, eaten, -, -, passed⟩ := passed
          obtain ⟨next, passed, restPassed⟩ := Feed.passes_append.mp passed
          have eatenLength := Parser.eat_length eaten
          have passedLength := passed.length
          have nextReady := stops_before_joined disjoint restPassed ends
          exact ⟨mid, ⟨token, eaten⟩, tree link.operand, next,
            (recognizes (by omega) _ _).mpr ⟨link.operand, passed, rfl, nextReady⟩,
            (ih _ (by omega) (by omega) nextReady).mpr ⟨rest, restPassed, rfl, ends⟩⟩

/-- Operands joined by operators are read as far as the operators go. -/
theorem chain_eq_ok_iff
    (recognizes : operand.Recognizes (bound + 1) symbols tree (Feed.Stops tight))
    (nonempty : ∀ phrase, symbols phrase ≠ [])
    (disjoint : ∀ operator ∈ operators, operator ∉ tight) {feed : Feed}
    (short : feed.lexemes.length ≤ bound + 1) (value : Expression) (behind : Feed) :
    Parser.chain bound operators operand feed = .ok (value, behind) ↔
      ∃ first, ∃ rest : List (Joined operators β),
        feed.Passes (symbols first ++ joinedSymbols symbols rest) behind ∧
          joinedTree tree (tree first) rest = value ∧ behind.Stops (operators ++ tight) := by
  -- The first operand takes a token at least, so the rounds are enough for what is left.
  have shorter {phrase : β} {mid : Feed} (passed : feed.Passes (symbols phrase) mid) :
      mid.lexemes.length ≤ bound := by
    have less := passed.length_lt (nonempty phrase)
    omega
  rw [Parser.chain, Parser.bind_eq_ok_iff]
  constructor
  · rintro ⟨firstValue, mid, read, more⟩
    obtain ⟨first, passed, rfl, ready⟩ := (recognizes short _ _).mp read
    obtain ⟨rest, restPassed, rfl, ends⟩ := (operations_eq_ok_iff recognizes disjoint bound _
      (shorter passed) (Nat.le_succ_of_le (shorter passed)) ready _ _).mp more
    exact ⟨first, rest, Feed.passes_append.mpr ⟨mid, passed, restPassed⟩, rfl, ends⟩
  · rintro ⟨first, rest, passed, rfl, ends⟩
    obtain ⟨mid, passed, restPassed⟩ := Feed.passes_append.mp passed
    have ready := stops_before_joined disjoint restPassed ends
    refine ⟨tree first, mid, (recognizes short _ _).mpr ⟨first, passed, rfl, ready⟩, ?_⟩
    exact (operations_eq_ok_iff recognizes disjoint bound _ (shorter passed)
      (Nat.le_succ_of_le (shorter passed)) ready _ _).mpr ⟨rest, restPassed, rfl, ends⟩

theorem chain_recognizes {γ : Type} {mk : β → List (Joined operators β) → γ}
    {chainSymbols : γ → List Symbol} {chainTree : γ → Expression}
    (recognizes : operand.Recognizes (bound + 1) symbols tree (Feed.Stops tight))
    (nonempty : ∀ phrase, symbols phrase ≠ [])
    (disjoint : ∀ operator ∈ operators, operator ∉ tight)
    (onto : ∀ phrase, ∃ first rest, mk first rest = phrase)
    (symbols_mk : ∀ first rest,
      chainSymbols (mk first rest) = symbols first ++ joinedSymbols symbols rest)
    (tree_mk : ∀ first rest, chainTree (mk first rest) = joinedTree tree (tree first) rest) :
    (Parser.chain bound operators operand).Recognizes (bound + 1) chainSymbols chainTree
      (Feed.Stops (operators ++ tight)) := by
  intro feed short value behind
  rw [chain_eq_ok_iff recognizes nonempty disjoint short]
  constructor
  · rintro ⟨first, rest, passed, rfl, ends⟩
    exact ⟨mk first rest, by rwa [symbols_mk], tree_mk first rest, ends⟩
  · rintro ⟨phrase, passed, rfl, ends⟩
    obtain ⟨first, rest, rfl⟩ := onto phrase
    exact ⟨first, rest, by rwa [← symbols_mk], (tree_mk first rest).symm, ends⟩

end Chain

/-- The number of a literal is read only if it is in range. -/
theorem literal_eq_ok_iff {feed behind : Feed} {value : Expression} :
    Parser.literal feed = .ok (value, behind) ↔
      ∃ phrase : LiteralPhrase, feed.Passes [phrase.symbol] behind ∧ phrase.tree = value := by
  rw [Parser.literal, Parser.peek_bind]
  constructor
  · intro h
    generalize (feed.lexemes.head?.map Lexeme.token).map Token.kind = kind at h
    split at h
    · obtain ⟨token, mid, eaten, h⟩ := Parser.bind_eq_ok_iff.mp h
      cases number : Binary64.ofDigits? token.text.toList with
      | none => rw [number] at h; cases h
      | some nearest =>
        rw [number] at h
        obtain ⟨rfl, rfl⟩ := Parser.pure_eq_ok_iff.mp h
        refine ⟨.number ⟨token.text⟩, ⟨token, mid, eaten, rfl, ?_, rfl⟩, ?_⟩
        · exact fun _ => ⟨nearest, number⟩
        · simp [LiteralPhrase.tree, nearestNumber, number]
    · obtain ⟨token, mid, eaten, h⟩ := Parser.bind_eq_ok_iff.mp h
      obtain ⟨rfl, rfl⟩ := Parser.pure_eq_ok_iff.mp h
      exact ⟨.string ⟨token.text⟩,
        (Feed.passes_terminal (by decide)).mpr ⟨token, mid, eaten, rfl, rfl⟩, rfl⟩
    · obtain ⟨token, mid, eaten, h⟩ := Parser.bind_eq_ok_iff.mp h
      obtain ⟨rfl, rfl⟩ := Parser.pure_eq_ok_iff.mp h
      exact ⟨.identifier ⟨token.text⟩,
        (Feed.passes_terminal (by decide)).mpr ⟨token, mid, eaten, rfl, rfl⟩, rfl⟩
    · exact absurd h Parser.unexpected_ne_ok
  · rintro ⟨phrase, ⟨token, mid, eaten, text, range, rfl⟩, rfl⟩
    have kind : (feed.lexemes.head?.map Lexeme.token).map Token.kind = some phrase.symbol.kind :=
      Parser.eat_kind eaten
    rw [kind]
    cases phrase with
    | number numeral =>
      obtain ⟨nearest, number⟩ := range rfl
      refine Parser.bind_eq_ok_iff.mpr ⟨token, mid, eaten, ?_⟩
      rw [text, number]
      have nearestEq : nearestNumber numeral.text = nearest := by
        rw [nearestNumber, show Binary64.ofDigits? numeral.text.toList = some nearest from number,
          Option.getD_some]
      exact Parser.pure_eq_ok_iff.mpr ⟨by rw [LiteralPhrase.tree, nearestEq], rfl⟩
    | string quoted =>
      refine Parser.bind_eq_ok_iff.mpr ⟨token, mid, eaten, ?_⟩
      exact Parser.pure_eq_ok_iff.mpr ⟨by rw [Token.unquoted, text]; rfl, rfl⟩
    | identifier name =>
      refine Parser.bind_eq_ok_iff.mpr ⟨token, mid, eaten, ?_⟩
      exact Parser.pure_eq_ok_iff.mpr ⟨by rw [text]; rfl, rfl⟩

theorem factor_recognizes {inner : Parser Expression} {bound : Nat}
    (recognizes : inner.Recognizes bound ExpressionPhrase.symbols ExpressionPhrase.tree
      (Feed.Stops (sumOperators ++ productOperators))) :
    (Parser.factor inner).Recognizes (bound + 1) FactorPhrase.symbols FactorPhrase.tree
      (Feed.Stops []) := by
  intro feed short value behind
  rw [Parser.factor, Parser.check_bind]
  -- No literal starts with a parenthesis, so the lookahead tells the two forms apart.
  by_cases opens : feed.kind? = some .lParen
  · simp only [opens, decide_true, if_true, Parser.bind_eq_ok_iff, Parser.discard_eq_ok_iff,
      Parser.pure_eq_ok_iff, exists_const]
    constructor
    · rintro ⟨mid, ⟨left, eaten⟩, tree, next, read, last, ⟨right, closed⟩, rfl, rfl⟩
      have := Parser.eat_length eaten
      obtain ⟨phrase, passed, rfl, -⟩ := (recognizes (by omega) _ _).mp read
      refine ⟨.parentheses ⟨left.text⟩ phrase ⟨right.text⟩, ?_, rfl, by simp [Feed.Stops]⟩
      exact .of_eat (by decide) eaten
        (Feed.passes_append.mpr ⟨next, passed, .of_eat (by decide) closed (.refl _)⟩)
    · rintro ⟨phrase, passed, rfl, -⟩
      cases phrase with
      | literal literal =>
        obtain ⟨token, mid, eaten, -⟩ := passed
        have kind := Parser.eat_kind eaten
        rw [opens] at kind
        cases literal <;> cases kind
      | parentheses left inner right =>
        obtain ⟨leftToken, mid, eaten, -, passed⟩ := (Feed.passes_terminal (by decide)).mp passed
        obtain ⟨next, innerPassed, passed⟩ := Feed.passes_append.mp passed
        obtain ⟨rightToken, last, closed, -, rfl⟩ := (Feed.passes_terminal (by decide)).mp passed
        have := Parser.eat_length eaten
        have stops := Feed.stops_of_eat (by decide) closed (sumOperators ++ productOperators)
        exact ⟨mid, ⟨leftToken, eaten⟩, inner.tree, next,
          (recognizes (by omega) _ _).mpr ⟨inner, innerPassed, rfl, stops⟩, last,
          ⟨rightToken, closed⟩, rfl, rfl⟩
  · simp only [opens, decide_false, Bool.false_eq_true, if_false]
    rw [literal_eq_ok_iff]
    constructor
    · rintro ⟨literal, passed, rfl⟩
      exact ⟨.literal literal, passed, rfl, by simp [Feed.Stops]⟩
    · rintro ⟨phrase, passed, rfl, -⟩
      cases phrase with
      | literal literal => exact ⟨literal, passed, rfl⟩
      | parentheses left inner right =>
        obtain ⟨left, mid, eaten, -⟩ := (Feed.passes_terminal (by decide)).mp passed
        exact absurd (Parser.eat_kind eaten) opens

theorem expression_recognizes (bound : Nat) :
    (Parser.expression bound).Recognizes bound ExpressionPhrase.symbols ExpressionPhrase.tree
      (Feed.Stops (sumOperators ++ productOperators)) := by
  induction bound with
  | zero =>
    intro feed short value behind
    constructor
    · intro h
      exact absurd h Parser.unexpected_ne_ok
    · rintro ⟨phrase, passed, -⟩
      have less := passed.length_lt phrase.startsIn.ne_nil
      omega
  | succ bound ih =>
    have terms : (Parser.chain bound productOperators
        (Parser.factor (Parser.expression bound))).Recognizes (bound + 1) TermPhrase.symbols
        TermPhrase.tree (Feed.Stops productOperators) :=
      chain_recognizes (factor_recognizes ih) (fun phrase => phrase.startsIn.ne_nil) (by decide)
        (fun ⟨first, rest⟩ => ⟨first, rest, rfl⟩) TermPhrase.symbols_mk TermPhrase.tree_mk
    exact chain_recognizes terms (fun phrase => phrase.startsIn.ne_nil) (by decide)
      (fun ⟨first, rest⟩ => ⟨first, rest, rfl⟩) ExpressionPhrase.symbols_mk ExpressionPhrase.tree_mk

end TinyScript
