import TinyScript.Proofs.CppReader
import TinyScript.Proofs.Lexis

/-!
# Pieces and expressions of C++ text

The words, numerals, marks and literals of C++ text are taken apart into pieces one by one, so that
they make up a lexis. The reader of expressions follows the rules of factors, terms and sums: a row
of pieces that is read as a term or a sum can be followed by further operands, and these are joined
to the tree that is there already.
-/

namespace TinyScript.Cpp

/-! ## Pieces of known text -/

theorem pieces?_of_step {part next : Part} {char : Char} {ended : List Piece}
    (h : step? part char = some (ended, next)) (rest : List Char) :
    pieces? part (char :: rest) = (pieces? next rest).map (ended ++ ·) := by
  rw [pieces?, h]
  cases more : pieces? next rest <;> simp [more]

theorem pieces?_of_inside {part next : Part} {char : Char} (h : step? part char = some ([], next))
    (rest : List Char) : pieces? part (char :: rest) = pieces? next rest := by
  rw [pieces?_of_step h]
  exact Option.map_id'

/-- A piece that the next character does not go on with ends before it. -/
theorem pieces?_of_end {part : Part} {piece : Piece} {rest : List Char}
    (finish : finish? part = some [piece])
    (ends : ∀ char ∈ rest.head?, step? part char =
      (start? char).map fun (pieces, part) => (piece :: pieces, part)) :
    pieces? part rest = (pieces? .gap rest).map (piece :: ·) := by
  cases rest with
  | nil => rw [pieces?, pieces?, finish]; rfl
  | cons char rest =>
    rw [pieces?, pieces?, ends char rfl]
    cases started : start? char with
    | none => simp [step?, started]
    | some opened => cases more : pieces? opened.2 rest <;> simp [step?, started, more]

theorem pieces?_word {word rest : List Char} (all : ∀ char ∈ word, isWordPart char = true)
    (ends : EndsWord rest) (read : List Char) :
    pieces? (.word read) (word ++ rest) =
      (pieces? .gap rest).map (.word (String.ofList (read ++ word)) :: ·) := by
  induction word generalizing read with
  | nil =>
    rw [List.append_nil]
    apply pieces?_of_end rfl
    intro char member
    rw [step?, if_neg (by simp [ends char member])]
  | cons char word ih =>
    obtain ⟨isPart, all⟩ := List.forall_mem_cons.mp all
    have taken : step? (.word read) char = some ([], .word (read ++ [char])) := by
      rw [step?, if_pos isPart]
    rw [List.cons_append, pieces?_of_inside taken, ih all, List.append_assoc]
    rfl

theorem pieces?_numeral {digits rest : List Char} (all : ∀ char ∈ digits, char.isDigit = true)
    (ends : EndsWord rest) (read : List Char) :
    pieces? (.numeral read) (digits ++ rest) =
      (pieces? .gap rest).map (.numeral (String.ofList (read ++ digits)) :: ·) := by
  induction digits generalizing read with
  | nil =>
    rw [List.append_nil]
    apply pieces?_of_end rfl
    intro char member
    have other := ends char member
    have digit := isDigit_eq_false_of_isWordPart other
    rw [step?, if_neg (by simp [digit]), if_neg (by simp [other])]
  | cons char digits ih =>
    obtain ⟨digit, all⟩ := List.forall_mem_cons.mp all
    have taken : step? (.numeral read) char = some ([], .numeral (read ++ [char])) := by
      rw [step?, if_pos digit]
    rw [List.cons_append, pieces?_of_inside taken, ih all, List.append_assoc]
    rfl

/-- A stretch of text in which no piece ends, with what is open before it and behind it. -/
inductive Inside : Part → List Char → Part → Prop
  | nil (part : Part) : Inside part [] part
  | cons {part next last : Part} {char : Char} {rest : List Char}
      (taken : step? part char = some ([], next)) (more : Inside next rest last) :
      Inside part (char :: rest) last

theorem Inside.append {part next last : Part} {text more : List Char} (h : Inside part text next)
    (h' : Inside next more last) : Inside part (text ++ more) last := by
  induction h with
  | nil part => exact h'
  | cons taken _ ih => exact .cons taken (ih h')

theorem Inside.pieces? {part next : Part} {text : List Char} (h : Inside part text next)
    (rest : List Char) : pieces? part (text ++ rest) = Cpp.pieces? next rest := by
  induction h with
  | nil part => rfl
  | cons taken _ ih => rw [List.cons_append, pieces?_of_inside taken, ih]

/-- A character is what its escaped form denotes. -/
theorem inside_escapeChar (read : List Char) (char : Char) :
    Inside (.literal read) (escapeChar char) (.literal (read ++ [char])) := by
  have escaped {second : Char} (h : unescape? second = some char) :
      Inside (.literal read) ['\\', second] (.literal (read ++ [char])) := by
    have opened : step? (.literal read) '\\' = some ([], .escape read) := rfl
    have closed : step? (.escape read) second = some ([], .literal (read ++ [char])) := by
      rw [step?, h]
      rfl
    exact .cons opened (.cons closed (.nil _))
  unfold escapeChar
  split
  · exact escaped rfl
  · exact escaped rfl
  · exact escaped rfl
  · exact escaped rfl
  · exact escaped rfl
  · rename_i quote backslash newline carriageReturn tab
    have sameLine : ¬ (decide (char = '\n') || decide (char = '\r')) = true := by
      rw [Bool.or_eq_true, decide_eq_true_iff, decide_eq_true_iff]
      exact not_or.mpr ⟨newline, carriageReturn⟩
    have plain : step? (.literal read) char = some ([], .literal (read ++ [char])) := by
      rw [step?, if_neg quote, if_neg backslash, if_neg sameLine]
    exact .cons plain (.nil _)

theorem inside_escape (value read : List Char) :
    Inside (.literal read) (value.flatMap escapeChar) (.literal (read ++ value)) := by
  induction value generalizing read with
  | nil =>
    rw [List.append_nil]
    exact .nil _
  | cons char value ih =>
    have more := (inside_escapeChar read char).append (ih (read ++ [char]))
    rwa [List.append_assoc] at more

theorem pieces?_literal (value rest read : List Char) :
    pieces? (.literal read) (value.flatMap escapeChar ++ '"' :: rest) =
      (pieces? .gap rest).map (.literal (String.ofList (read ++ value)) :: ·) := by
  have closed : step? (.literal (read ++ value)) '"' =
      some ([.literal (String.ofList (read ++ value))], .gap) := rfl
  rw [(inside_escape value read).pieces?]
  exact pieces?_of_step closed rest

theorem step?_of_isWordStart {char : Char} (h : isWordStart char = true) :
    step? .gap char = some ([], .word [char]) := by
  have code := isWordStart_iff_toNat.mp h
  have visible : isBlank char = false := not_isBlank_of_toNat (by omega) (by omega)
  rw [step?, start?, if_neg (by simp [visible]), if_pos h]

theorem step?_of_isDigit {char : Char} (h : char.isDigit = true) :
    step? .gap char = some ([], .numeral [char]) := by
  have code := isDigit_iff_toNat.mp h
  have visible : isBlank char = false := not_isBlank_of_toNat (by omega) (by omega)
  have noWord : ¬ isWordStart char = true := by
    rw [isWordStart_iff_toNat]
    omega
  rw [step?, start?, if_neg (by simp [visible]), if_neg noWord, if_pos h]

/-! ## Tokens of C++ text -/

/-- The pieces up to the rest of a text are the given ones. -/
def Scans (text : List Char) (row : List Piece) (rest : List Char) : Prop :=
  pieces? .gap text = (pieces? .gap rest).map (row ++ ·)

theorem Scans.trans {first second third : List Char} {row row' : List Piece}
    (h : Scans first row second) (h' : Scans second row' third) :
    Scans first (row ++ row') third := by
  unfold Scans at h h' ⊢
  rw [h, h', Option.map_map]
  congr 1
  funext more
  exact (List.append_assoc row row' more).symm

theorem scans_blank {char : Char} (rest : List Char) (blank : isBlank char = true) :
    Scans (char :: rest) [] rest := by
  have passed : step? .gap char = some ([], .gap) := by
    rw [step?, start?, if_pos blank]
  exact pieces?_of_step passed rest

theorem scans_mark {char : Char} (rest : List Char) (h : char ∈ markChars) :
    Scans (char :: rest) [.mark char] rest := by
  have marks : markChars.all (fun char => step? .gap char = some ([.mark char], .gap)) = true := by
    decide
  have known := List.all_eq_true.mp marks char h
  exact pieces?_of_step (of_decide_eq_true known) rest

/-- The mark that an operator is written with. -/
def operatorMark (operator : Operator) : Piece :=
  .mark (operator.symbol.toList.headD ' ')

theorem scans_operator (operator : Operator) (rest : List Char) :
    Scans (operator.symbol.toList ++ ' ' :: rest) [operatorMark operator] rest := by
  have blank : Scans (' ' :: rest) [] rest := scans_blank rest (by decide)
  cases operator <;> exact (scans_mark (' ' :: rest) (by decide)).trans blank

theorem scans_word {text : String} {rest : List Char} (word : isWord text.toList = true)
    (ends : EndsWord rest) : Scans (text.toList ++ rest) [.word text] rest := by
  rw [← String.ofList_toList (s := text)]
  generalize text.toList = chars at word
  rw [String.toList_ofList]
  cases chars with
  | nil => cases word
  | cons first chars =>
    rw [isWord, Bool.and_eq_true, List.all_eq_true] at word
    unfold Scans
    rw [List.cons_append, pieces?_of_inside (step?_of_isWordStart word.1),
      pieces?_word word.2 ends]
    rfl

theorem scans_numeral {text : String} {rest : List Char} (nonempty : text.toList ≠ [])
    (digits : ∀ char ∈ text.toList, char.isDigit = true) (ends : EndsWord rest) :
    Scans (text.toList ++ rest) [.numeral text] rest := by
  rw [← String.ofList_toList (s := text)]
  generalize text.toList = chars at nonempty digits
  rw [String.toList_ofList]
  cases chars with
  | nil => exact absurd rfl nonempty
  | cons first chars =>
    obtain ⟨digit, digits⟩ := List.forall_mem_cons.mp digits
    unfold Scans
    rw [List.cons_append, pieces?_of_inside (step?_of_isDigit digit), pieces?_numeral digits ends]
    rfl

theorem scans_literal (value : String) (rest : List Char) :
    Scans ((literal value).toList ++ rest) [.literal value] rest := by
  have text : (literal value).toList ++ rest =
      '"' :: (value.toList.flatMap escapeChar ++ '"' :: rest) := by
    simp [literal, escape]
  have opened : step? .gap '"' = some ([], .literal []) := rfl
  unfold Scans
  rw [text, pieces?_of_inside opened, pieces?_literal, List.nil_append, String.ofList_toList]
  rfl

/-- The tokens of C++ text. -/
def cppLexis : Lexis Piece where
  word := .word
  numeral := .numeral
  mark := .mark
  operator := operatorMark
  quoted := .literal
  marks := markChars
  literal := literal
  Scans := Scans
  refl _ := Option.map_id'.symm
  trans := .trans
  scans_blank := scans_blank
  scans_mark := scans_mark
  scans_operator := scans_operator
  scans_word := scans_word
  scans_numeral := scans_numeral
  scans_literal rest _ := scans_literal _ rest
  parentheses := by decide

/-! ## Reading expressions -/

namespace Reader

/-- An operator is found exactly if it is one of the wanted ones. -/
theorem operator_operatorMark (operators : List Operator) (op : Operator) (rest : List Piece) :
    operator operators (operatorMark op :: rest) =
      if op ∈ operators then some (op, rest) else none := by
  have same (other : Operator) :
      decide (other.symbol = String.ofList [op.symbol.toList.headD ' ']) = decide (other = op) := by
    cases other <;> cases op <;> rfl
  simp only [operator, operatorMark, same]
  induction operators with
  | nil => rfl
  | cons first operators ih =>
    by_cases equal : first = op
    · simp [equal]
    · rw [List.find?_cons_of_neg (by simp [equal]), ih]
      simp [Ne.symm equal]

theorem joined_of_stop {operators : List Operator} {operand : Reader Expression}
    {rest : List Piece} (stop : operator operators rest = none) (rounds : Nat)
    (left : Expression) : joined operators operand rounds left rest = some (left, rest) := by
  cases rounds with
  | zero => rfl
  | succ rounds => rw [joined, stop]

theorem joined_of_operator {operators : List Operator} {operand : Reader Expression} {op : Operator}
    {left right : Expression} {pieces rest : List Piece} (h : op ∈ operators)
    (reads : operand pieces = some (right, rest)) (rounds : Nat) :
    joined operators operand (rounds + 1) left (operatorMark op :: pieces) =
      joined operators operand rounds (.binary op left right) rest := by
  rw [joined, operator_operatorMark, if_pos h]
  simp [reads]

/-- A row is read as a factor, given a bound that exceeds its nesting. -/
def ReadsFactor (row : List Piece) (tree : Expression) : Prop :=
  ∀ bound rest, row.length ≤ bound → factor (expression bound) (row ++ rest) = some (tree, rest)

/-- A row is read as factors joined to one tree, to which further ones can be joined. -/
def ReadsTerm (row : List Piece) (tree : Expression) : Prop :=
  ∃ joints ≤ row.length, ∀ bound rounds rest, row.length ≤ bound →
    chain productOperators (factor (expression bound)) (joints + rounds) (row ++ rest) =
      joined productOperators (factor (expression bound)) rounds tree rest

/-- A row is read as terms joined to one tree, to which further ones can be joined, unless the last
    term goes on behind the row. -/
def ReadsSum (row : List Piece) (tree : Expression) : Prop :=
  ∃ joints ≤ row.length, ∀ bound rounds rest, row.length ≤ bound →
    operator productOperators rest = none →
    chain sumOperators (chain productOperators (factor (expression bound)) bound) (joints + rounds)
        (row ++ rest) =
      joined sumOperators (chain productOperators (factor (expression bound)) bound) rounds tree
        rest

theorem ReadsFactor.term {row : List Piece} {tree : Expression} (h : ReadsFactor row tree) :
    ReadsTerm row tree := by
  refine ⟨0, Nat.zero_le _, ?_⟩
  intro bound rounds rest enough
  rw [chain, h bound rest enough, Nat.zero_add]
  rfl

/-- Where no further factor follows, a term is all that is read. -/
theorem ReadsTerm.chain_eq {row : List Piece} {tree : Expression} (h : ReadsTerm row tree)
    {bound : Nat} {rest : List Piece} (enough : row.length ≤ bound)
    (stop : operator productOperators rest = none) :
    chain productOperators (factor (expression bound)) bound (row ++ rest) = some (tree, rest) := by
  obtain ⟨joints, few, reads⟩ := h
  have run := reads bound (bound - joints) rest enough
  rw [Nat.add_sub_cancel' (Nat.le_trans few enough)] at run
  rw [run, joined_of_stop stop]

theorem ReadsTerm.sum {row : List Piece} {tree : Expression} (h : ReadsTerm row tree) :
    ReadsSum row tree := by
  refine ⟨0, Nat.zero_le _, ?_⟩
  intro bound rounds rest enough stop
  rw [chain, h.chain_eq enough stop, Nat.zero_add]
  rfl

theorem ReadsTerm.product {op : Operator} {row row' : List Piece} {left right : Expression}
    (isProduct : op ∈ productOperators) (h : ReadsTerm row left) (h' : ReadsFactor row' right) :
    ReadsTerm (row ++ operatorMark op :: row') (.binary op left right) := by
  obtain ⟨joints, few, reads⟩ := h
  refine ⟨joints + 1, by simp; omega, ?_⟩
  intro bound rounds rest enough
  rw [List.length_append, List.length_cons] at enough
  have run := reads bound (rounds + 1) (operatorMark op :: (row' ++ rest)) (by omega)
  rw [joined_of_operator isProduct (h' bound rest (by omega))] at run
  rw [List.append_assoc, Nat.add_right_comm, Nat.add_assoc]
  exact run

theorem ReadsSum.sum {op : Operator} {row row' : List Piece} {left right : Expression}
    (isSum : op ∈ sumOperators) (h : ReadsSum row left) (h' : ReadsTerm row' right) :
    ReadsSum (row ++ operatorMark op :: row') (.binary op left right) := by
  obtain ⟨joints, few, reads⟩ := h
  refine ⟨joints + 1, by simp; omega, ?_⟩
  intro bound rounds rest enough stop
  rw [List.length_append, List.length_cons] at enough
  -- The term before the operator ends there, since the operator joins terms.
  have noProduct : operator productOperators (operatorMark op :: (row' ++ rest)) = none := by
    have apart : ∀ op ∈ sumOperators, op ∉ productOperators := by decide
    rw [operator_operatorMark, if_neg (apart op isSum)]
  have run := reads bound (rounds + 1) (operatorMark op :: (row' ++ rest)) (by omega) noProduct
  rw [joined_of_operator isSum (h'.chain_eq (by omega) stop)] at run
  rw [List.append_assoc, Nat.add_right_comm, Nat.add_assoc]
  exact run

/-- A row is read as an expression where no operator follows. -/
theorem ReadsSum.expression_eq {row : List Piece} {tree : Expression} (h : ReadsSum row tree)
    {bound : Nat} {rest : List Piece} (enough : row.length < bound)
    (noProduct : operator productOperators rest = none)
    (noSum : operator sumOperators rest = none) :
    expression bound (row ++ rest) = some (tree, rest) := by
  obtain ⟨joints, few, reads⟩ := h
  cases bound with
  | zero => exact absurd enough (Nat.not_lt_zero _)
  | succ bound =>
    have run := reads bound (bound - joints) rest (by omega) noProduct
    rw [Nat.add_sub_cancel' (by omega), joined_of_stop noSum] at run
    exact run

theorem ReadsSum.parenthesized {row : List Piece} {tree : Expression} (h : ReadsSum row tree) :
    ReadsFactor (.mark '(' :: (row ++ [.mark ')'])) tree := by
  intro bound rest enough
  rw [List.length_cons, List.length_append, List.length_singleton] at enough
  have inside : expression bound (row ++ .mark ')' :: rest) = some (tree, .mark ')' :: rest) :=
    h.expression_eq (by omega) rfl rfl
  rw [List.cons_append, List.append_assoc]
  simp [factor, inside, mark]

theorem readsFactor_leaf {tree : Expression} (leaf : tree.precedence = 255)
    (wellFormed : tree.isWellFormed = true) : ReadsFactor (cppLexis.tokens tree) tree := by
  intro bound rest _
  cases tree with
  | binary op left right => cases op <;> cases leaf
  | identifier name => rfl
  | number value =>
    obtain ⟨-, -, read⟩ := numeral_of_isWellFormed wellFormed
    show (Binary64.ofDigits? (value.numeral .plain).toList >>= fun value =>
      pure (Expression.number value, rest)) = some (.number value, rest)
    rw [read]
    rfl
  | string value => rfl

end Reader

/-- How rows of pieces are read as expressions. -/
def cppRules : ExpressionRules cppLexis where
  Factor := Reader.ReadsFactor
  Term := Reader.ReadsTerm
  Sum := Reader.ReadsSum
  leaf := Reader.readsFactor_leaf
  parenthesized := Reader.ReadsSum.parenthesized
  term_of_factor := Reader.ReadsFactor.term
  sum_of_term := Reader.ReadsTerm.sum
  product := Reader.ReadsTerm.product
  sum := Reader.ReadsSum.sum

/-- The pieces of an expression are read as the expression before a semicolon. -/
theorem Reader.expression_tokens {tree : Expression} (wellFormed : tree.isWellFormed = true)
    {bound : Nat} (enough : (cppLexis.tokens tree).length < bound) (rest : List Piece) :
    expression bound (cppLexis.tokens tree ++ .mark ';' :: rest) =
      some (tree, .mark ';' :: rest) := by
  have reads : ReadsSum (cppLexis.tokens tree) tree := (cppRules.reads tree wellFormed).sum
  exact reads.expression_eq enough rfl rfl

end TinyScript.Cpp
