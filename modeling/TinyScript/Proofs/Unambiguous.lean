import TinyScript.Proofs.Recognition

/-!
# Derivations are unique

No two phrases of a program have the same symbols. The proof compares two phrases at the front of
one row of symbols: they are equal, and so is what stands behind them, provided that the symbols
behind them would not go on with either. Inside parentheses and bodies the compared phrases get
shorter, so the comparison is by induction on a bound for the length of the first phrase.
-/

namespace TinyScript

/-- A row of symbols starts with none of the operators. -/
def StopsAt (operators : List Operator) (symbols : List Symbol) : Prop :=
  ∀ operator ∈ operators, symbols.head? ≠ some operator.terminal

/-- Phrases with at most so many symbols can be told from the symbols they derive, also where other
    symbols stand behind them. -/
def Separates {β : Type} (symbols : β → List Symbol) (ends : List Symbol → Prop)
    (bound : Nat) : Prop :=
  ∀ ⦃first second : β⦄ ⦃rest rest' : List Symbol⦄, (symbols first).length ≤ bound →
    symbols first ++ rest = symbols second ++ rest' → ends rest → ends rest' →
      first = second ∧ rest = rest'

theorem Terminal.symbol_cons_inj {kind : TokenKind} {first second : Terminal kind}
    {rest rest' : List Symbol} :
    first.symbol :: rest = second.symbol :: rest' ↔ first = second ∧ rest = rest' := by
  obtain ⟨text⟩ := first
  obtain ⟨text'⟩ := second
  simp [Terminal.symbol]

theorem stopsAt_terminal {kind : TokenKind} (h : kind ≠ .operator) (operators : List Operator)
    (terminal : Terminal kind) (rest : List Symbol) :
    StopsAt operators (terminal.symbol :: rest) := by
  intro operator _
  simp [Terminal.symbol, Operator.terminal, h]

/-! ## Expressions -/

section Chain

variable {β : Type} {operators tight : List Operator} {symbols : β → List Symbol} {bound : Nat}

theorem stopsAt_joined (disjoint : ∀ operator ∈ operators, operator ∉ tight)
    (links : List (Joined operators β)) {rest : List Symbol}
    (ends : StopsAt (operators ++ tight) rest) :
    StopsAt tight (joinedSymbols symbols links ++ rest) := by
  intro operator member
  cases links with
  | nil => exact ends operator (List.mem_append_right _ member)
  | cons link links =>
    rw [joinedSymbols_cons, List.cons_append, List.head?_cons]
    intro found
    rw [Option.some.injEq] at found
    rw [← Operator.terminal_injective found] at member
    exact disjoint _ link.allowed member

/-- A link of a chain cannot be mistaken for what follows the chain. -/
theorem joined_ne_of_stopsAt {link : Joined operators β} {links : List (Joined operators β)}
    {rest rest' : List Symbol} (ends : StopsAt (operators ++ tight) rest) :
    rest ≠ joinedSymbols symbols (link :: links) ++ rest' := by
  rintro rfl
  refine ends link.operator (List.mem_append_left _ link.allowed) ?_
  rw [joinedSymbols_cons]
  rfl

theorem joined_separates (separates : Separates symbols (StopsAt tight) bound)
    (disjoint : ∀ operator ∈ operators, operator ∉ tight) :
    Separates (@joinedSymbols operators β symbols) (StopsAt (operators ++ tight)) bound := by
  intro links links' rest rest' short same ends ends'
  induction links generalizing links' with
  | nil =>
    cases links' with
    | nil => exact ⟨rfl, same⟩
    | cons link links => exact absurd same (joined_ne_of_stopsAt ends)
  | cons link links ih =>
    cases links' with
    | nil => exact absurd same.symm (joined_ne_of_stopsAt ends')
    | cons link' links' =>
      simp only [joinedSymbols_cons, List.cons_append, List.append_assoc, List.cons.injEq,
        List.length_cons, List.length_append] at same short
      obtain ⟨sameOperator, sameOperands⟩ := same
      obtain ⟨sameOperand, sameLinks⟩ := separates (by omega) sameOperands
        (stopsAt_joined disjoint links ends) (stopsAt_joined disjoint links' ends')
      obtain ⟨rfl, rfl⟩ := ih (by omega) sameLinks
      obtain ⟨operator, allowed, operand⟩ := link
      obtain ⟨operator', allowed', operand'⟩ := link'
      obtain rfl := Operator.terminal_injective sameOperator
      obtain rfl : operand = operand' := sameOperand
      exact ⟨rfl, rfl⟩

theorem chain_separates {γ : Type} {mk : β → List (Joined operators β) → γ}
    {chainSymbols : γ → List Symbol} (separates : Separates symbols (StopsAt tight) bound)
    (disjoint : ∀ operator ∈ operators, operator ∉ tight)
    (onto : ∀ phrase, ∃ first rest, mk first rest = phrase)
    (symbols_mk : ∀ first rest,
      chainSymbols (mk first rest) = symbols first ++ joinedSymbols symbols rest) :
    Separates chainSymbols (StopsAt (operators ++ tight)) bound := by
  intro phrase phrase' rest rest' short same ends ends'
  obtain ⟨first, links, rfl⟩ := onto phrase
  obtain ⟨first', links', rfl⟩ := onto phrase'
  simp only [symbols_mk, List.append_assoc, List.length_append] at same short
  obtain ⟨rfl, sameLinks⟩ := separates (by omega) same (stopsAt_joined disjoint links ends)
    (stopsAt_joined disjoint links' ends')
  obtain ⟨rfl, rfl⟩ := joined_separates separates disjoint (by omega) sameLinks ends ends'
  exact ⟨rfl, rfl⟩

end Chain

theorem LiteralPhrase.symbol_injective : Function.Injective LiteralPhrase.symbol := by
  intro first second same
  cases first <;> cases second <;>
    simp_all [LiteralPhrase.symbol, Terminal.symbol, Terminal.ext_iff]

theorem factor_separates {bound : Nat} (separates : Separates ExpressionPhrase.symbols
    (StopsAt (sumOperators ++ productOperators)) bound) :
    Separates FactorPhrase.symbols (StopsAt []) (bound + 1) := by
  intro factor factor' rest rest' short same _ _
  cases factor with
  | literal literal =>
    cases factor' with
    | literal literal' =>
      simp only [FactorPhrase.symbols, List.cons_append, List.nil_append, List.cons.injEq] at same
      obtain ⟨sameLiteral, rfl⟩ := same
      rw [LiteralPhrase.symbol_injective sameLiteral]
      exact ⟨rfl, rfl⟩
    | parentheses left inner right =>
      cases literal <;> simp [FactorPhrase.symbols, LiteralPhrase.symbol, Terminal.symbol] at same
  | parentheses left inner right =>
    cases factor' with
    | literal literal =>
      cases literal <;> simp [FactorPhrase.symbols, LiteralPhrase.symbol, Terminal.symbol] at same
    | parentheses left' inner' right' =>
      simp only [FactorPhrase.symbols, List.cons_append, List.nil_append, List.append_assoc,
        Terminal.symbol_cons_inj, List.length_cons, List.length_append] at same short
      obtain ⟨rfl, sameInner⟩ := same
      obtain ⟨rfl, sameRight⟩ := separates (by omega) sameInner (stopsAt_terminal (by decide) _ _ _)
        (stopsAt_terminal (by decide) _ _ _)
      obtain ⟨rfl, rfl⟩ := Terminal.symbol_cons_inj.mp sameRight
      exact ⟨rfl, rfl⟩

theorem expression_separates (bound : Nat) : Separates ExpressionPhrase.symbols
    (StopsAt (sumOperators ++ productOperators)) bound := by
  induction bound with
  | zero =>
    intro phrase _ _ _ short
    exact absurd (List.length_eq_zero_iff.mp (Nat.le_zero.mp short)) phrase.startsIn.ne_nil
  | succ bound ih =>
    have terms : Separates TermPhrase.symbols (StopsAt productOperators) (bound + 1) :=
      chain_separates (factor_separates ih) (by decide) (fun ⟨first, rest⟩ => ⟨first, rest, rfl⟩)
        TermPhrase.symbols_mk
    exact chain_separates terms (by decide) (fun ⟨first, rest⟩ => ⟨first, rest, rfl⟩)
      ExpressionPhrase.symbols_mk

/-! ## Statements -/

theorem ExpressionPhrase.append_inj {first second : ExpressionPhrase}
    {kind kind' : TokenKind} (h : kind ≠ .operator) (h' : kind' ≠ .operator)
    {terminal : Terminal kind} {terminal' : Terminal kind'} {rest rest' : List Symbol}
    (same :
      first.symbols ++ terminal.symbol :: rest = second.symbols ++ terminal'.symbol :: rest') :
    first = second ∧ terminal.symbol :: rest = terminal'.symbol :: rest' :=
  expression_separates _ (Nat.le_refl _) same (stopsAt_terminal h _ _ _) (stopsAt_terminal h' _ _ _)

theorem variable_separates (bound : Nat) :
    Separates VariablePhrase.symbols (fun _ => True) bound := by
  intro phrase phrase' rest rest' _ same _ _
  obtain ⟨keyword, name, colon, typeName, assign, value, semicolon⟩ := phrase
  obtain ⟨keyword', name', colon', typeName', assign', value', semicolon'⟩ := phrase'
  simp only [VariablePhrase.symbols, List.cons_append, List.nil_append, List.append_assoc,
    Terminal.symbol_cons_inj] at same
  obtain ⟨rfl, rfl, rfl, rfl, rfl, sameValue⟩ := same
  obtain ⟨rfl, sameEnd⟩ := ExpressionPhrase.append_inj (by decide) (by decide) sameValue
  obtain ⟨rfl, rfl⟩ := Terminal.symbol_cons_inj.mp sameEnd
  exact ⟨rfl, rfl⟩

theorem return_separates (bound : Nat) :
    Separates ReturnPhrase.symbols (fun _ => True) bound := by
  intro phrase phrase' rest rest' _ same _ _
  obtain ⟨keyword, argument, semicolon⟩ := phrase
  obtain ⟨keyword', argument', semicolon'⟩ := phrase'
  simp only [ReturnPhrase.symbols, List.cons_append, List.nil_append, List.append_assoc,
    Terminal.symbol_cons_inj] at same
  obtain ⟨rfl, sameArgument⟩ := same
  cases argument with
  | none =>
    cases argument' with
    | none =>
      obtain ⟨rfl, rfl⟩ := Terminal.symbol_cons_inj.mp sameArgument
      exact ⟨rfl, rfl⟩
    | some value' =>
      exact absurd sameArgument.symm ((value'.startsIn.append _).ne_terminal (by decide) _ _)
  | some value =>
    cases argument' with
    | none => exact absurd sameArgument ((value.startsIn.append _).ne_terminal (by decide) _ _)
    | some value' =>
      obtain ⟨rfl, sameEnd⟩ := ExpressionPhrase.append_inj (by decide) (by decide) sameArgument
      obtain ⟨rfl, rfl⟩ := Terminal.symbol_cons_inj.mp sameEnd
      exact ⟨rfl, rfl⟩

theorem parameter_separates {phrase phrase' : ParameterPhrase} {rest rest' : List Symbol}
    (same : phrase.symbols ++ rest = phrase'.symbols ++ rest') :
    phrase = phrase' ∧ rest = rest' := by
  obtain ⟨name, colon, typeName⟩ := phrase
  obtain ⟨name', colon', typeName'⟩ := phrase'
  simp only [ParameterPhrase.symbols, List.cons_append, List.nil_append,
    Terminal.symbol_cons_inj] at same
  obtain ⟨rfl, rfl, rfl, rfl⟩ := same
  exact ⟨rfl, rfl⟩

theorem moreSymbols_append_inj {more more' : List (Terminal .comma × ParameterPhrase)}
    {right right' : Terminal .rParen} {rest rest' : List Symbol}
    (same :
      moreSymbols more ++ right.symbol :: rest = moreSymbols more' ++ right'.symbol :: rest') :
    more = more' ∧ right = right' ∧ rest = rest' := by
  induction more generalizing more' with
  | nil =>
    cases more' with
    | nil => exact ⟨rfl, Terminal.symbol_cons_inj.mp same⟩
    | cons first more' => simp [moreSymbols, Terminal.symbol] at same
  | cons first more ih =>
    cases more' with
    | nil => simp [moreSymbols, Terminal.symbol] at same
    | cons first' more' =>
      obtain ⟨comma, parameter⟩ := first
      obtain ⟨comma', parameter'⟩ := first'
      simp only [moreSymbols, List.flatMap_cons, List.cons_append, List.append_assoc,
        Terminal.symbol_cons_inj] at same
      obtain ⟨rfl, sameParameter⟩ := same
      obtain ⟨rfl, sameMore⟩ := parameter_separates sameParameter
      obtain ⟨rfl, rfl, rfl⟩ := ih sameMore
      exact ⟨rfl, rfl, rfl⟩

theorem signature_separates {phrase phrase' : SignaturePhrase} {rest rest' : List Symbol}
    (same : phrase.symbols ++ rest = phrase'.symbols ++ rest') :
    phrase = phrase' ∧ rest = rest' := by
  obtain ⟨keyword, name, left, parameters, right, colon, returnType⟩ := phrase
  obtain ⟨keyword', name', left', parameters', right', colon', returnType'⟩ := phrase'
  simp only [SignaturePhrase.symbols, List.cons_append, List.nil_append, List.append_assoc,
    Terminal.symbol_cons_inj] at same
  obtain ⟨rfl, rfl, rfl, sameParameters⟩ := same
  cases parameters with
  | none =>
    cases parameters' with
    | none =>
      simp only [Option.elim_none, List.nil_append, Terminal.symbol_cons_inj] at sameParameters
      obtain ⟨rfl, rfl, rfl, rfl⟩ := sameParameters
      exact ⟨rfl, rfl⟩
    | some phrase =>
      simp [ParametersPhrase.symbols, ParameterPhrase.symbols, Terminal.symbol] at sameParameters
  | some phrase =>
    cases parameters' with
    | none =>
      simp [ParametersPhrase.symbols, ParameterPhrase.symbols, Terminal.symbol] at sameParameters
    | some phrase' =>
      obtain ⟨first, more⟩ := phrase
      obtain ⟨first', more'⟩ := phrase'
      simp only [Option.elim_some, ParametersPhrase.symbols, List.append_assoc] at sameParameters
      obtain ⟨rfl, sameMore⟩ := parameter_separates sameParameters
      obtain ⟨rfl, rfl, sameEnd⟩ := moreSymbols_append_inj sameMore
      simp only [Terminal.symbol_cons_inj] at sameEnd
      obtain ⟨rfl, rfl, rfl⟩ := sameEnd
      exact ⟨rfl, rfl⟩

/-- Bodies end where no statement starts. -/
theorem body_separates {bound : Nat} {ends : List Symbol → Prop}
    (separates : Separates StatementPhrase.symbols (fun _ => True) bound)
    (ends_ne : ∀ (phrase : StatementPhrase) (rest rest' : List Symbol),
      ends rest → rest ≠ phrase.symbols ++ rest') :
    Separates StatementPhrase.bodySymbols ends bound := by
  intro body body' rest rest' short same here here'
  induction body generalizing body' with
  | nil =>
    cases body' with
    | nil => exact ⟨rfl, same⟩
    | cons phrase body' =>
      rw [StatementPhrase.bodySymbols, StatementPhrase.bodySymbols, List.append_assoc] at same
      exact absurd same (ends_ne phrase _ _ here)
  | cons phrase body ih =>
    rw [StatementPhrase.bodySymbols, List.append_assoc] at same
    rw [StatementPhrase.bodySymbols, List.length_append] at short
    cases body' with
    | nil => exact absurd same.symm (ends_ne phrase _ _ here')
    | cons phrase' body' =>
      rw [StatementPhrase.bodySymbols, List.append_assoc] at same
      obtain ⟨rfl, sameBody⟩ := separates (by omega) same trivial trivial
      obtain ⟨rfl, rfl⟩ := ih (by omega) sameBody
      exact ⟨rfl, rfl⟩

theorem statement_separates (bound : Nat) :
    Separates StatementPhrase.symbols (fun _ => True) bound := by
  induction bound with
  | zero =>
    intro phrase _ _ _ short
    exact absurd (List.length_eq_zero_iff.mp (Nat.le_zero.mp short)) phrase.startsIn.ne_nil
  | succ bound ih =>
    have bodies : Separates StatementPhrase.bodySymbols
        (fun symbols => ∃ (right : Terminal .rBrace) (rest : List Symbol),
          symbols = right.symbol :: rest) bound := by
      refine body_separates ih ?_
      rintro phrase _ rest' ⟨right, rest, rfl⟩ same
      exact (phrase.startsIn.append rest').ne_terminal (by decide) right rest same.symm
    intro phrase phrase' rest rest' short same _ _
    -- Statements of different forms differ in their first symbol.
    cases phrase with
    | variableDeclaration phrase =>
      cases phrase' with
      | variableDeclaration phrase' =>
        obtain ⟨rfl, rfl⟩ := variable_separates _ short same trivial trivial
        exact ⟨rfl, rfl⟩
      | functionDeclaration signature left body right => cases congrArg (List.head? ·) same
      | returnStatement phrase' => cases congrArg (List.head? ·) same
    | functionDeclaration signature left body right =>
      cases phrase' with
      | variableDeclaration phrase' => cases congrArg (List.head? ·) same
      | functionDeclaration signature' left' body' right' =>
        simp only [StatementPhrase.symbols, List.append_assoc, List.length_append] at same short
        obtain ⟨rfl, sameBraces⟩ := signature_separates same
        simp only [List.cons_append, List.nil_append, Terminal.symbol_cons_inj,
          List.length_cons] at sameBraces short
        obtain ⟨rfl, sameBody⟩ := sameBraces
        obtain ⟨rfl, sameEnd⟩ := bodies (by omega) sameBody ⟨right, rest, rfl⟩ ⟨right', rest', rfl⟩
        obtain ⟨rfl, rfl⟩ := Terminal.symbol_cons_inj.mp sameEnd
        exact ⟨rfl, rfl⟩
      | returnStatement phrase' => cases congrArg (List.head? ·) same
    | returnStatement phrase =>
      cases phrase' with
      | variableDeclaration phrase' => cases congrArg (List.head? ·) same
      | functionDeclaration signature left body right => cases congrArg (List.head? ·) same
      | returnStatement phrase' =>
        obtain ⟨rfl, rfl⟩ := return_separates _ short same trivial trivial
        exact ⟨rfl, rfl⟩

/-- A row of symbols has at most one derivation as a program. -/
theorem ProgramPhrase.symbols_injective : Function.Injective ProgramPhrase.symbols := by
  intro first second same
  obtain ⟨body⟩ := first
  obtain ⟨body'⟩ := second
  have bodies : Separates StatementPhrase.bodySymbols (· = [])
      (StatementPhrase.bodySymbols body).length := by
    refine body_separates (statement_separates _) ?_
    rintro phrase _ rest' rfl same
    exact (phrase.startsIn.append rest').ne_nil same.symm
  have same' :
      StatementPhrase.bodySymbols body ++ [] = StatementPhrase.bodySymbols body' ++ [] := by
    rw [List.append_nil, List.append_nil]
    exact same
  obtain ⟨rfl, -⟩ := bodies (Nat.le_refl _) same' rfl rfl
  rfl

end TinyScript
