import TinyScript.Proofs.PrintRoundTrip

/-!
# The fewest parentheses

No text that is read as an expression has fewer parentheses than the expression's canonical text. An
operand that has to bind stronger than some level, and does not, costs a pair of parentheses. The
printer writes these pairs and no others, and no phrase of the grammar goes without them: each level
of the grammar is bounded by what the printer writes for an operand at that level.
-/

namespace TinyScript

/-! ## Counting -/

/-- The number of opening parentheses in a row of symbols. -/
def openings (symbols : List Symbol) : Nat :=
  symbols.countP (·.kind = .lParen)

theorem openings_append (first second : List Symbol) :
    openings (first ++ second) = openings first + openings second :=
  List.countP_append

theorem openings_cons_of_eq {symbol : Symbol} (h : symbol.kind = .lParen) (rest : List Symbol) :
    openings (symbol :: rest) = openings rest + 1 :=
  List.countP_cons_of_pos (by simpa using h)

theorem openings_cons_of_ne {symbol : Symbol} (h : symbol.kind ≠ .lParen) (rest : List Symbol) :
    openings (symbol :: rest) = openings rest :=
  List.countP_cons_of_neg (by simpa using h)

theorem openings_map_symbol (tokens : List Token) :
    openings (tokens.map Token.symbol) = tokens.countP (·.kind = .lParen) :=
  List.countP_map

theorem ofWord_ne_lParen (word : String) : TokenKind.ofWord word ≠ .lParen := by
  unfold TokenKind.ofWord TokenKind.keyword?
  split <;> simp

/-! ## Canonical text -/

namespace Expression

/-- The number of opening parentheses in the canonical text of an operand that has to bind stronger
    than a level. -/
def openingsAbove (level : Nat) (expression : Expression) : Nat :=
  openings (sourceLexis.group (expression.precedence ≤ level) (sourceLexis.tokens expression))

variable {expression : Expression} {level : Nat}

theorem openingsAbove_of_le (h : expression.precedence ≤ level) :
    expression.openingsAbove level = openings (sourceLexis.tokens expression) + 1 := by
  have right : openings [sourceLexis.mark ')'] = 0 := rfl
  rw [openingsAbove, decide_eq_true h, Lexis.group, if_pos rfl, openings_cons_of_eq rfl,
    openings_append, right, Nat.add_zero]

theorem openingsAbove_of_lt (h : level < expression.precedence) :
    expression.openingsAbove level = openings (sourceLexis.tokens expression) := by
  rw [openingsAbove, decide_eq_false (Nat.not_le.mpr h), Lexis.group, if_neg Bool.false_ne_true]

theorem precedence_pos (expression : Expression) : 0 < expression.precedence := by
  cases expression with
  | binary operator left right => cases operator <;> exact Nat.succ_pos _
  | identifier | number | string => exact Nat.succ_pos _

/-- What need not bind at all needs no parentheses around it. -/
theorem openingsAbove_zero (expression : Expression) :
    expression.openingsAbove 0 = openings (sourceLexis.tokens expression) :=
  openingsAbove_of_lt expression.precedence_pos

/-- One pair of parentheses is enough for any level. -/
theorem openingsAbove_le (expression : Expression) (level : Nat) :
    expression.openingsAbove level ≤ expression.openingsAbove 0 + 1 := by
  rw [openingsAbove_zero]
  by_cases loose : expression.precedence ≤ level
  · rw [openingsAbove_of_le loose]
  · rw [openingsAbove_of_lt (Nat.not_le.mp loose)]
    exact Nat.le_succ _

theorem openingsAbove_mono (expression : Expression) {level' : Nat} (h : level ≤ level') :
    expression.openingsAbove level ≤ expression.openingsAbove level' := by
  by_cases tight : level' < expression.precedence
  · rw [openingsAbove_of_lt (Nat.lt_of_le_of_lt h tight), openingsAbove_of_lt tight]
  · rw [openingsAbove_of_le (Nat.not_lt.mp tight), ← openingsAbove_zero]
    exact expression.openingsAbove_le level

/-- The left operand may bind as its operator does, the right one has to bind stronger. -/
theorem openingsAbove_binary {operator : Operator} {left right : Expression}
    (h : operator.precedence = level + 1) :
    (binary operator left right).openingsAbove level =
      left.openingsAbove level + right.openingsAbove (level + 1) := by
  have tight : level < (binary operator left right).precedence := by
    rw [precedence, h]
    exact Nat.lt_succ_self level
  have joins : (sourceLexis.operator operator).kind ≠ .lParen := TokenKind.noConfusion
  rw [openingsAbove_of_lt tight, Lexis.tokens, openings_append, openings_cons_of_ne joins, h]
  simp only [Nat.lt_succ_iff]
  rfl

theorem openingsAbove_leaf (leaf : expression.precedence = 255) (below : level < 255) :
    expression.openingsAbove level = 0 := by
  rw [openingsAbove_of_lt (by rw [leaf]; exact below)]
  cases expression with
  | binary operator left right => cases operator <;> cases leaf
  | identifier name => exact openings_cons_of_ne (ofWord_ne_lParen name) []
  | number value => rfl
  | string value => rfl

end Expression

/-! ## Phrases -/

theorem Operator.precedence_of_sum {operator : Operator} (h : operator ∈ sumOperators) :
    operator.precedence = 1 := by
  cases operator <;> first | rfl | simp at h

theorem Operator.precedence_of_product {operator : Operator} (h : operator ∈ productOperators) :
    operator.precedence = 2 := by
  cases operator <;> first | rfl | simp at h

theorem Operator.openings_terminal (operator : Operator) (rest : List Symbol) :
    openings (operator.terminal :: rest) = openings rest :=
  openings_cons_of_ne (TokenKind.noConfusion : TokenKind.operator ≠ .lParen) rest

theorem LiteralPhrase.precedence_tree (phrase : LiteralPhrase) : phrase.tree.precedence = 255 := by
  cases phrase <;> rfl

mutual

/-- A phrase has the parentheses that the printer writes for its tree. -/
theorem ExpressionPhrase.openingsAbove_tree_le : (phrase : ExpressionPhrase) →
    phrase.tree.openingsAbove 0 ≤ openings phrase.symbols
  | .mk first rest => by
    rw [ExpressionPhrase.tree, ExpressionPhrase.symbols, openings_append]
    have loose := first.tree.openingsAbove_mono (Nat.zero_le 1)
    exact ExpressionPhrase.openingsAbove_restTree_le (loose.trans first.openingsAbove_tree_le) rest

/-- Joining terms to a sum keeps the bound: each brings the parentheses that it needs there. -/
theorem ExpressionPhrase.openingsAbove_restTree_le {left : Expression} {count : Nat}
    (before : left.openingsAbove 0 ≤ count) : (rest : List (Joined sumOperators TermPhrase)) →
    (ExpressionPhrase.restTree left rest).openingsAbove 0 ≤
      count + openings (ExpressionPhrase.restSymbols rest)
  | [] => before
  | ⟨operator, allowed, term⟩ :: rest => by
    rw [ExpressionPhrase.restTree, ExpressionPhrase.restSymbols, List.cons_append,
      operator.openings_terminal, openings_append, ← Nat.add_assoc]
    refine ExpressionPhrase.openingsAbove_restTree_le ?_ rest
    rw [Expression.openingsAbove_binary (Operator.precedence_of_sum allowed)]
    exact Nat.add_le_add before term.openingsAbove_tree_le

theorem TermPhrase.openingsAbove_tree_le : (phrase : TermPhrase) →
    phrase.tree.openingsAbove 1 ≤ openings phrase.symbols
  | .mk first rest => by
    rw [TermPhrase.tree, TermPhrase.symbols, openings_append]
    have loose := first.tree.openingsAbove_mono (Nat.le_succ 1)
    exact TermPhrase.openingsAbove_restTree_le (loose.trans first.openingsAbove_tree_le) rest

theorem TermPhrase.openingsAbove_restTree_le {left : Expression} {count : Nat}
    (before : left.openingsAbove 1 ≤ count) :
    (rest : List (Joined productOperators FactorPhrase)) →
    (TermPhrase.restTree left rest).openingsAbove 1 ≤
      count + openings (TermPhrase.restSymbols rest)
  | [] => before
  | ⟨operator, allowed, factor⟩ :: rest => by
    rw [TermPhrase.restTree, TermPhrase.restSymbols, List.cons_append,
      operator.openings_terminal, openings_append, ← Nat.add_assoc]
    refine TermPhrase.openingsAbove_restTree_le ?_ rest
    rw [Expression.openingsAbove_binary (Operator.precedence_of_product allowed)]
    exact Nat.add_le_add before factor.openingsAbove_tree_le

theorem FactorPhrase.openingsAbove_tree_le : (phrase : FactorPhrase) →
    phrase.tree.openingsAbove 2 ≤ openings phrase.symbols
  | .parentheses left inner right => by
    have closing : openings [right.symbol] = 0 := rfl
    rw [FactorPhrase.tree, FactorPhrase.symbols, List.cons_append, List.nil_append,
      List.cons_append, openings_cons_of_eq rfl, openings_append, closing, Nat.add_zero]
    exact (inner.tree.openingsAbove_le 2).trans (Nat.succ_le_succ inner.openingsAbove_tree_le)
  | .literal literal => by
    rw [FactorPhrase.tree, Expression.openingsAbove_leaf literal.precedence_tree (by decide)]
    exact Nat.zero_le _

end

/-! ## Texts -/

/-- A text that is read as an expression from its start to its end. -/
def Expression.IsReadFrom (expression : Expression) (text : String) : Prop :=
  ∃ tokens behind, tokenize text = .ok tokens ∧
    Parser.expression tokens.length (Cursor.ofText text).feed = .ok (expression, behind) ∧
    behind.lexemes = []

/-- A text is read as an expression exactly if its tokens are the symbols of a phrase with this
    tree, every number among them being in range. -/
theorem Expression.isReadFrom_iff_phrase {expression : Expression} {text : String} :
    expression.IsReadFrom text ↔ ∃ tokens, ∃ phrase : ExpressionPhrase,
      tokenize text = .ok tokens ∧ phrase.symbols = tokens.map Token.symbol ∧
        (∀ symbol ∈ phrase.symbols, symbol.InRange) ∧ phrase.tree = expression := by
  simp only [IsReadFrom, tokenize, Feed.tokens_eq_ok_iff]
  generalize (Cursor.ofText text).feed = feed
  constructor
  · rintro ⟨_, behind, ⟨⟨cursor, finished⟩, rfl⟩, read, ends⟩
    rw [List.length_map] at read
    obtain ⟨phrase, passed, rfl, -⟩ := (expression_recognizes _ (Nat.le_refl _) _ _).mp read
    obtain ⟨-, -, same, ranges⟩ :=
      Feed.passes_all_iff.mp ⟨fun _ => ⟨cursor, finished⟩, passed, ends⟩
    refine ⟨_, phrase, ⟨⟨cursor, finished⟩, rfl⟩, ?_, ranges, rfl⟩
    rw [same, List.map_map]
    rfl
  · rintro ⟨_, phrase, ⟨finished, rfl⟩, same, ranges, rfl⟩
    rw [List.map_map] at same
    obtain ⟨-, passed, ends⟩ := Feed.passes_all_iff.mpr ⟨finished, rfl, same, ranges⟩
    refine ⟨_, _, ⟨finished, rfl⟩, ?_, ends⟩
    rw [List.length_map]
    refine (expression_recognizes _ (Nat.le_refl _) _ _).mpr ⟨phrase, passed, rfl, ?_⟩
    intro operator _
    simp [Feed.lookahead]

/-- The canonical text of a well-formed expression has the tokens of the expression, and is read as
    it. -/
theorem Expression.isReadFrom_print {expression : Expression}
    (wellFormed : expression.isWellFormed = true) :
    expression.IsReadFrom expression.print ∧ ∃ tokens, tokenize expression.print = .ok tokens ∧
      tokens.map Token.symbol = sourceLexis.tokens expression := by
  have scans : Scans expression.print.toList (sourceLexis.tokens expression) [] := by
    have writes : sourceLexis.Writes (expression.render quoteLiteral).toList
        (sourceLexis.tokens expression) := Lexis.writes_render expression wellFormed
    have whole := writes [] (by simp [EndsWord])
    rwa [List.append_nil, ← expression.print_eq_render] at whole
  obtain ⟨tokens, tokenized, symbols⟩ := scans.tokenize
  obtain ⟨phrase, row, tree⟩ := (sourceRules.reads expression wellFormed).sum
  refine ⟨isReadFrom_iff_phrase.mpr ⟨tokens, phrase, tokenized, row.trans symbols.symm, ?_, tree⟩,
    tokens, tokenized, symbols⟩
  rw [row]
  exact inRange_of_mem_tokens wellFormed

/-- Of all texts that are read as an expression, its canonical text has the fewest parentheses. -/
theorem Expression.print_has_fewest_parentheses {text : String} {expression : Expression}
    (read : expression.IsReadFrom text) :
    expression.IsReadFrom expression.print ∧
      ∃ tokens canonical, tokenize text = .ok tokens ∧
        tokenize expression.print = .ok canonical ∧
        canonical.countP (·.kind = .lParen) ≤ tokens.countP (·.kind = .lParen) := by
  obtain ⟨tokens, phrase, tokenized, symbols, -, rfl⟩ := isReadFrom_iff_phrase.mp read
  have wellFormed : phrase.tree.isWellFormed = true := by
    apply phrase.tree_isWellFormed
    intro symbol member
    rw [symbols] at member
    obtain ⟨token, isToken, rfl⟩ := List.mem_map.mp member
    exact spells_of_tokenize tokenized token isToken
  obtain ⟨readBack, canonical, printed, row⟩ := isReadFrom_print wellFormed
  refine ⟨readBack, tokens, canonical, tokenized, printed, ?_⟩
  calc canonical.countP (·.kind = .lParen)
      = openings (sourceLexis.tokens phrase.tree) := by rw [← row, openings_map_symbol]
    _ = phrase.tree.openingsAbove 0 := phrase.tree.openingsAbove_zero.symm
    _ ≤ openings phrase.symbols := phrase.openingsAbove_tree_le
    _ = tokens.countP (·.kind = .lParen) := by rw [symbols, openings_map_symbol]

/-- Of two pairs around a right operand one is needed. -/
theorem Expression.print_has_fewest_parentheses_doubled :
    (binary .sub (identifier "a") (binary .sub (identifier "b") (identifier "c"))).IsReadFrom
      "a - ((b - c))" ∧
    ∃ tokens canonical, tokenize "a - ((b - c))" = .ok tokens ∧
      tokenize (binary .sub (identifier "a")
        (binary .sub (identifier "b") (identifier "c"))).print = .ok canonical ∧
      canonical.countP (·.kind = .lParen) ≤ tokens.countP (·.kind = .lParen) := by
  have tokenized : tokenize "a - ((b - c))" = .ok [
      ⟨.identifier, "a", ⟨0, 1, 1⟩⟩, ⟨.operator, "-", ⟨2, 1, 3⟩⟩, ⟨.lParen, "(", ⟨4, 1, 5⟩⟩,
      ⟨.lParen, "(", ⟨5, 1, 6⟩⟩, ⟨.identifier, "b", ⟨6, 1, 7⟩⟩, ⟨.operator, "-", ⟨8, 1, 9⟩⟩,
      ⟨.identifier, "c", ⟨10, 1, 11⟩⟩, ⟨.rParen, ")", ⟨11, 1, 12⟩⟩,
      ⟨.rParen, ")", ⟨12, 1, 13⟩⟩] := by
    cbv
  have read : (binary .sub (identifier "a")
      (binary .sub (identifier "b") (identifier "c"))).IsReadFrom "a - ((b - c))" :=
    ⟨_, ⟨[], .finish ⟨[], ⟨13, 1, 14⟩⟩⟩, tokenized, by cbv, rfl⟩
  exact ⟨read, (print_has_fewest_parentheses read).2⟩

end TinyScript
