import TinyScript.Proofs.Rendering
import TinyScript.Proofs.WellFormed

/-!
# Texts of tokens

Source text and C++ text are put together from the same material: words, numerals, marks, string
literals and blanks. A lexis says which tokens a language makes of them, with a relation that takes
the front of a text apart. From these few facts follows that the text of an expression is taken
apart into the expression's row of tokens, and, given rules for factors, terms and sums, that this
row is read as the expression.
-/

namespace TinyScript

/-- A text whose start does not go on with a word or a numeral before it. -/
def EndsWord (rest : List Char) : Prop :=
  ∀ char ∈ rest.head?, isWordPart char = false

theorem endsWord_cons {char : Char} (rest : List Char) (h : isWordPart char = false) :
    EndsWord (char :: rest) := by
  intro first member
  cases member
  exact h

/-- Whether a text starts with a character that is no part of a word. -/
def startsApart (text : List Char) : Bool :=
  text.head?.any (!isWordPart ·)

theorem endsWord_of_startsApart {text : List Char} (h : startsApart text = true)
    (rest : List Char) : EndsWord (text ++ rest) := by
  cases text with
  | nil => cases h
  | cons char chars => exact endsWord_cons _ (by simpa [startsApart] using h)

/-- The tokens of a language. `Scans text tokens rest` says that the text starts with the tokens and
    that the rest stands behind them. -/
structure Lexis (τ : Type) where
  word : String → τ
  numeral : String → τ
  mark : Char → τ
  operator : Operator → τ
  quoted : String → τ
  /-- The characters that are tokens whatever stands behind them. -/
  marks : List Char
  /-- The form of a string literal. -/
  literal : String → String
  Scans : List Char → List τ → List Char → Prop
  refl : ∀ text, Scans text [] text
  trans : ∀ {first second third tokens tokens'}, Scans first tokens second →
    Scans second tokens' third → Scans first (tokens ++ tokens') third
  scans_blank : ∀ {char} rest, isBlank char = true → Scans (char :: rest) [] rest
  scans_mark : ∀ {char} rest, char ∈ marks → Scans (char :: rest) [mark char] rest
  scans_operator : ∀ op rest, Scans (op.symbol.toList ++ ' ' :: rest) [operator op] rest
  scans_word : ∀ {text : String} {rest}, isWord text.toList = true → EndsWord rest →
    Scans (text.toList ++ rest) [word text] rest
  scans_numeral : ∀ {text : String} {rest}, text.toList ≠ [] →
    (∀ char ∈ text.toList, char.isDigit = true) → EndsWord rest →
    Scans (text.toList ++ rest) [numeral text] rest
  scans_literal : ∀ {value} rest, (Expression.string value).isWellFormed = true →
    Scans ((literal value).toList ++ rest) [quoted value] rest
  parentheses : '(' ∈ marks ∧ ')' ∈ marks

namespace Lexis

variable {τ : Type} (lexis : Lexis τ)

/-! ## Complete texts -/

/-- A text that is taken apart into the tokens whatever stands behind it. -/
def Complete (text : List Char) (tokens : List τ) : Prop :=
  ∀ rest, lexis.Scans (text ++ rest) tokens rest

/-- A text that is taken apart into the tokens unless a word goes on behind it. -/
def Writes (text : List Char) (tokens : List τ) : Prop :=
  ∀ rest, EndsWord rest → lexis.Scans (text ++ rest) tokens rest

variable {lexis}

theorem Complete.writes {text : List Char} {tokens : List τ} (h : lexis.Complete text tokens) :
    lexis.Writes text tokens :=
  fun rest _ => h rest

theorem Complete.append {first second : List Char} {tokens tokens' : List τ}
    (h : lexis.Complete first tokens) (h' : lexis.Complete second tokens') :
    lexis.Complete (first ++ second) (tokens ++ tokens') := by
  intro rest
  rw [List.append_assoc]
  exact lexis.trans (h _) (h' rest)

theorem Complete.append_writes {first second : List Char} {tokens tokens' : List τ}
    (h : lexis.Complete first tokens) (h' : lexis.Writes second tokens') :
    lexis.Writes (first ++ second) (tokens ++ tokens') := by
  intro rest ends
  rw [List.append_assoc]
  exact lexis.trans (h _) (h' rest ends)

/-- A word is complete with anything behind it that is no part of a word. -/
theorem Writes.append {first second : List Char} {tokens tokens' : List τ}
    (h : lexis.Writes first tokens) (h' : lexis.Complete second tokens')
    (apart : startsApart second = true) :
    lexis.Complete (first ++ second) (tokens ++ tokens') := by
  intro rest
  rw [List.append_assoc]
  exact lexis.trans (h _ (endsWord_of_startsApart apart rest)) (h' rest)

theorem complete_empty : lexis.Complete [] [] :=
  lexis.refl

theorem complete_blank (char : Char) (h : isBlank char = true) : lexis.Complete [char] [] :=
  fun rest => lexis.scans_blank rest h

theorem complete_space : lexis.Complete " ".toList [] :=
  complete_blank ' ' (by decide)

theorem complete_newline : lexis.Complete "\n".toList [] :=
  complete_blank '\n' (by decide)

theorem complete_blanks {blanks : List Char} (all : ∀ char ∈ blanks, isBlank char = true) :
    lexis.Complete blanks [] := by
  induction blanks with
  | nil => exact complete_empty
  | cons char blanks ih =>
    obtain ⟨blank, all⟩ := List.forall_mem_cons.mp all
    exact (complete_blank char blank).append (ih all)

theorem complete_mark (char : Char) (h : char ∈ lexis.marks) :
    lexis.Complete [char] [lexis.mark char] :=
  fun rest => lexis.scans_mark rest h

theorem complete_operator (operator : Operator) :
    lexis.Complete (operator.symbol.toList ++ [' ']) [lexis.operator operator] := by
  intro rest
  rw [List.append_assoc]
  exact lexis.scans_operator operator rest

theorem writes_word {text : String} (h : isWord text.toList = true) :
    lexis.Writes text.toList [lexis.word text] :=
  fun _ ends => lexis.scans_word h ends

/-- Texts with a separator between them. -/
theorem writes_intercalate {α : Type} {separator : List Char} {between : List τ}
    (separates : lexis.Complete separator between) (apart : startsApart separator = true)
    {text : α → List Char} {row : α → List τ} (items : List α)
    (each : ∀ item ∈ items, lexis.Writes (text item) (row item)) :
    lexis.Writes (separator.intercalate (items.map text))
      (between.intercalate (items.map row)) := by
  induction items with
  | nil => exact complete_empty.writes
  | cons item items ih =>
    obtain ⟨first, others⟩ := List.forall_mem_cons.mp each
    cases items with
    | nil => simpa using first
    | cons next items =>
      have whole := (first.append separates apart).append_writes (ih others)
      simpa [List.intercalate_cons_cons] using whole

/-! ## The text of expressions -/

variable (lexis)

/-- A row of tokens, in parentheses if asked for. -/
def group (bracket : Bool) (tokens : List τ) : List τ :=
  if bracket then lexis.mark '(' :: (tokens ++ [lexis.mark ')']) else tokens

/-- The tokens of an expression, with the parentheses that its text has. -/
def tokens : Expression → List τ
  | .binary operator left right =>
    lexis.group (left.precedence < operator.precedence) (tokens left) ++
      lexis.operator operator ::
      lexis.group (right.precedence ≤ operator.precedence) (tokens right)
  | .identifier name => [lexis.word name]
  | .number value => [lexis.numeral (value.numeral .plain)]
  | .string value => [lexis.quoted value]

variable {lexis}

theorem Writes.grouped {text : String} {tokens : List τ} (h : lexis.Writes text.toList tokens)
    (bracket : Bool) :
    lexis.Writes (grouped bracket text).toList (lexis.group bracket tokens) := by
  cases bracket with
  | false => exact h
  | true =>
    have opened := (complete_mark '(' lexis.parentheses.1).append_writes h
    have closed := opened.append (complete_mark ')' lexis.parentheses.2) rfl
    simpa [TinyScript.grouped, group] using closed.writes

/-- The text of an expression is taken apart into its tokens. -/
theorem writes_render (expression : Expression) (wellFormed : expression.isWellFormed = true) :
    lexis.Writes (expression.render lexis.literal).toList (lexis.tokens expression) := by
  induction expression with
  | binary operator left right ihLeft ihRight =>
    rw [Expression.isWellFormed, Bool.and_eq_true] at wellFormed
    have left := (ihLeft wellFormed.1).grouped (left.precedence < operator.precedence)
    have right := (ihRight wellFormed.2).grouped (right.precedence ≤ operator.precedence)
    have spaced := left.append complete_space rfl
    have joined := spaced.append (complete_operator operator)
    have whole := joined.append_writes right
    simpa [Expression.render, tokens] using whole
  | identifier name =>
    rw [Expression.isWellFormed, isName, Bool.and_eq_true] at wellFormed
    exact writes_word wellFormed.1
  | number value =>
    obtain ⟨nonempty, digits, -⟩ := numeral_of_isWellFormed wellFormed
    exact fun rest ends => lexis.scans_numeral nonempty digits ends
  | string value => exact fun rest _ => lexis.scans_literal rest wellFormed

end Lexis

/-! ## Reading the tokens of expressions -/

/-- An operator joins terms or factors, and binds accordingly. -/
theorem Operator.level (operator : Operator) :
    operator ∈ sumOperators ∧ operator.precedence = 1 ∨
      operator ∈ productOperators ∧ operator.precedence = 2 := by
  cases operator <;> decide

/-- What a language reads as factors, as terms and as sums of terms. -/
structure ExpressionRules {τ : Type} (lexis : Lexis τ) where
  Factor : List τ → Expression → Prop
  Term : List τ → Expression → Prop
  Sum : List τ → Expression → Prop
  leaf : ∀ {expression}, expression.precedence = 255 → expression.isWellFormed = true →
    Factor (lexis.tokens expression) expression
  parenthesized : ∀ {tokens expression}, Sum tokens expression →
    Factor (lexis.mark '(' :: (tokens ++ [lexis.mark ')'])) expression
  term_of_factor : ∀ {tokens expression}, Factor tokens expression → Term tokens expression
  sum_of_term : ∀ {tokens expression}, Term tokens expression → Sum tokens expression
  product : ∀ {operator tokens tokens' left right}, operator ∈ productOperators →
    Term tokens left → Factor tokens' right →
    Term (tokens ++ lexis.operator operator :: tokens') (.binary operator left right)
  sum : ∀ {operator tokens tokens' left right}, operator ∈ sumOperators →
    Sum tokens left → Term tokens' right →
    Sum (tokens ++ lexis.operator operator :: tokens') (.binary operator left right)

namespace ExpressionRules

variable {τ : Type} {lexis : Lexis τ} (rules : ExpressionRules lexis)

/-- The tokens of an expression are read as the expression, at the levels where it needs no
    parentheses. -/
structure Reads (expression : Expression) : Prop where
  sum : rules.Sum (lexis.tokens expression) expression
  term : 1 < expression.precedence → rules.Term (lexis.tokens expression) expression
  factor : 2 < expression.precedence → rules.Factor (lexis.tokens expression) expression

variable {rules}

theorem Reads.factor_group {expression : Expression} (h : rules.Reads expression) {bracket : Bool}
    (tight : bracket = false → 2 < expression.precedence) :
    rules.Factor (lexis.group bracket (lexis.tokens expression)) expression := by
  cases bracket with
  | false => exact h.factor (tight rfl)
  | true => exact rules.parenthesized h.sum

theorem Reads.term_group {expression : Expression} (h : rules.Reads expression) {bracket : Bool}
    (tight : bracket = false → 1 < expression.precedence) :
    rules.Term (lexis.group bracket (lexis.tokens expression)) expression := by
  cases bracket with
  | false => exact h.term (tight rfl)
  | true => exact rules.term_of_factor (rules.parenthesized h.sum)

theorem Reads.sum_group {expression : Expression} (h : rules.Reads expression) (bracket : Bool) :
    rules.Sum (lexis.group bracket (lexis.tokens expression)) expression := by
  cases bracket with
  | false => exact h.sum
  | true => exact rules.sum_of_term (rules.term_of_factor (rules.parenthesized h.sum))

theorem Reads.of_factor {expression : Expression}
    (h : rules.Factor (lexis.tokens expression) expression) : rules.Reads expression where
  sum := rules.sum_of_term (rules.term_of_factor h)
  term _ := rules.term_of_factor h
  factor _ := h

/-- The tokens of every expression are read as the expression: parentheses stand wherever a level is
    too tight for an operand. -/
theorem reads (rules : ExpressionRules lexis) (expression : Expression)
    (wellFormed : expression.isWellFormed = true) : rules.Reads expression := by
  induction expression with
  | binary operator left right ihLeft ihRight =>
    rw [Expression.isWellFormed, Bool.and_eq_true] at wellFormed
    have readsLeft := ihLeft wellFormed.1
    have readsRight := ihRight wellFormed.2
    rcases operator.level with ⟨isSum, precedence⟩ | ⟨isProduct, precedence⟩
    · -- A sum is a term or a factor only in parentheses, so it is read at one level.
      have tight : decide (right.precedence ≤ operator.precedence) = false →
          1 < right.precedence := by
        intro loose
        have := of_decide_eq_false loose
        omega
      have loose : ¬ 1 < (Expression.binary operator left right).precedence := by
        rw [Expression.precedence]
        omega
      exact ⟨rules.sum isSum (readsLeft.sum_group _) (readsRight.term_group tight),
        fun h => absurd h loose, fun h => absurd (Nat.lt_of_succ_lt h) loose⟩
    · have tightLeft : decide (left.precedence < operator.precedence) = false →
          1 < left.precedence := by
        intro loose
        have := of_decide_eq_false loose
        omega
      have tightRight : decide (right.precedence ≤ operator.precedence) = false →
          2 < right.precedence := by
        intro loose
        have := of_decide_eq_false loose
        omega
      have loose : ¬ 2 < (Expression.binary operator left right).precedence := by
        rw [Expression.precedence]
        omega
      have term := rules.product isProduct (readsLeft.term_group tightLeft)
        (readsRight.factor_group tightRight)
      exact ⟨rules.sum_of_term term, fun _ => term, fun h => absurd h loose⟩
  | identifier name => exact .of_factor (rules.leaf rfl wellFormed)
  | number value => exact .of_factor (rules.leaf rfl wellFormed)
  | string value => exact .of_factor (rules.leaf rfl wellFormed)

end ExpressionRules

end TinyScript
