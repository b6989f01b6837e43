import Mathlib
import TinyScript.Proofs.Grammar

/-!
# Scanning known text

The spelling of a kind of token is a set of texts: rows of digits, quoted texts, words, single
characters. Every token of a text is spelled according to its kind, and a text that is put together
from spellings is taken apart again into the same tokens, provided that no spelling runs into what
stands behind it. `Scans` says so for a stretch of text and composes; the positions of the tokens
play no role in it.
-/

namespace TinyScript

/-! ## Classes of characters -/

theorem isDigit_iff_toNat {char : Char} :
    char.isDigit = true ↔ 48 ≤ char.toNat ∧ char.toNat ≤ 57 :=
  Char.isDigit_iff_toNat

theorem isWordStart_iff_toNat {char : Char} :
    isWordStart char = true ↔ (65 ≤ char.toNat ∧ char.toNat ≤ 90) ∨
      (97 ≤ char.toNat ∧ char.toNat ≤ 122) ∨ char.toNat = 95 := by
  simp [isWordStart, Char.isAlpha, Char.isUpper, Char.isLower, UInt32.le_iff_toNat_le,
    ← Char.toNat_inj, or_assoc]

theorem isWordPart_iff {char : Char} :
    isWordPart char = true ↔ isWordStart char = true ∨ char.isDigit = true := by
  simp only [isWordPart, isWordStart, Char.isAlphanum, Bool.or_eq_true]
  grind

theorem isDigit_eq_false_of_isWordPart {char : Char} (h : isWordPart char = false) :
    char.isDigit = false := by
  rw [Bool.eq_false_iff, ne_eq, isWordPart_iff, not_or] at h
  exact Bool.eq_false_iff.mpr h.2

theorem isQuote_iff_toNat {char : Char} :
    isQuote char = true ↔ char.toNat = 34 ∨ char.toNat = 39 := by
  simp [isQuote, ← Char.toNat_inj]

theorem isBlank_iff_toNat {char : Char} : isBlank char = true ↔
    ∃ range ∈ blankRanges, range.1 ≤ char.toNat ∧ char.toNat ≤ range.2 := by
  simp [isBlank, CodeRanges.has]

theorem not_isBlank_of_toNat {char : Char} (above : 33 ≤ char.toNat) (below : char.toNat ≤ 126) :
    isBlank char = false := by
  rw [Bool.eq_false_iff]
  intro blank
  obtain ⟨range, member, low, high⟩ := isBlank_iff_toNat.mp blank
  have outside : ∀ range ∈ blankRanges, range.2 ≤ 32 ∨ 127 ≤ range.1 := by decide
  have := outside range member
  omega

/-- The characters that are tokens by themselves. -/
def symbolChars : List Char :=
  ['+', '-', '*', '/', '<', '>', '=', '(', ')', '\x7b', '\x7d', '[', ']', ';', ':', ',']

theorem mem_symbolChars_of_symbol? {char : Char} {kind : TokenKind}
    (h : TokenKind.symbol? char = some kind) : char ∈ symbolChars := by
  unfold TokenKind.symbol? at h
  split at h
  · rename_i operator
    simp only [TokenKind.operatorChars, List.contains_iff_mem] at operator
    simp only [symbolChars, List.mem_cons] at operator ⊢
    grind
  · split at h
    · rename_i assign
      rw [assign]
      decide
    · unfold TokenKind.punctuation? at h
      split at h <;> first | decide | cases h

theorem symbolChars_apart : ∀ char ∈ symbolChars, char.isDigit = false ∧ isQuote char = false ∧
    isWordStart char = false ∧ isBlank char = false := by
  have all : symbolChars.all (fun char => !char.isDigit && !isQuote char && !isWordStart char &&
      !isBlank char) = true := by
    decide
  intro char member
  have apart := List.all_eq_true.mp all char member
  simpa [and_assoc] using apart

/-! ## Spellings -/

/-- The texts that tokens of a kind consist of. -/
inductive Spells : TokenKind → List Char → Prop
  | number {digits : List Char} (nonempty : digits ≠ []) (all : ∀ char ∈ digits, char.isDigit) :
      Spells .number digits
  | string {quote : Char} (isQuote : isQuote quote) {content : List Char} (free : quote ∉ content) :
      Spells .string (quote :: (content ++ [quote]))
  | word {first : Char} (start : isWordStart first) {rest : List Char}
      (all : ∀ char ∈ rest, isWordPart char) :
      Spells (TokenKind.ofWord (String.ofList (first :: rest))) (first :: rest)
  | symbol {char : Char} {kind : TokenKind} (isSymbol : TokenKind.symbol? char = some kind) :
      Spells kind [char]

theorem Spells.ne_nil {kind : TokenKind} {text : List Char} (h : Spells kind text) : text ≠ [] := by
  cases h with
  | number nonempty all => exact nonempty
  | string isQuote free => simp
  | word start all => simp
  | symbol isSymbol => simp

theorem take_length_takeWhile (p : Char → Bool) (text : List Char) :
    text.take (text.takeWhile p).length = text.takeWhile p :=
  (List.prefix_iff_eq_take.mp (List.takeWhile_prefix p)).symm

theorem takeWhile_ne_append {char : Char} {content rest : List Char} (free : char ∉ content) :
    (content ++ char :: rest).takeWhile (· ≠ char) = content := by
  rw [List.takeWhile_append_of_pos]
  · simp
  · intro other member
    have : other ≠ char := by
      rintro rfl
      exact free member
    simpa using this

/-- A token at the front of a text is spelled according to its kind. -/
theorem spells_of_front {text : List Char} {kind : TokenKind} {length : Nat}
    (h : Front.ofText text = .token kind length) : Spells kind (text.take length) := by
  cases text with
  | nil => cases h
  | cons char rest =>
    simp only [Front.ofText] at h
    -- The forms are tried in this order: digits, a quoted text, a word, a symbol.
    split at h
    · rename_i digit
      cases h
      rw [Nat.add_comm, List.take_succ_cons, take_length_takeWhile]
      refine .number (by simp) ?_
      intro other member
      rcases List.mem_cons.mp member with rfl | member
      · exact digit
      · exact List.all_eq_true.mp List.all_takeWhile other member
    · split at h
      · rename_i quote
        split at h
        · rename_i closed
          cases h
          obtain ⟨content, behind, rfl, free⟩ := List.eq_append_cons_of_mem closed
          rw [takeWhile_ne_append free, Nat.add_comm, List.take_succ_cons]
          have cut : (content ++ char :: behind).take (content.length + 1) = content ++ [char] := by
            rw [List.take_append, List.take_of_length_le (by omega)]
            simp
          rw [cut]
          exact .string quote free
        · cases h
      · split at h
        · rename_i start
          cases h
          rw [List.length_cons, List.take_succ_cons, take_length_takeWhile]
          exact .word start (List.all_eq_true.mp List.all_takeWhile)
        · split at h
          · rename_i found
            cases h
            exact .symbol found
          · cases h

/-- Whether a character right behind a token would be taken into it, or would make it a comment. -/
def goesOn : TokenKind → Char → Bool
  | .number, char => char.isDigit
  | .identifier, char | .varKeyword, char | .functionKeyword, char | .returnKeyword, char
  | .typeKeyword, char => isWordPart char
  | .operator, char => char = '/' || char = '*'
  | _, _ => false

/-- A text does not start with a character that would go on with a token of the kind. -/
def Parted (kind : TokenKind) (rest : List Char) : Prop :=
  ∀ char ∈ rest.head?, goesOn kind char = false

theorem goesOn_ofWord (word : String) : goesOn (TokenKind.ofWord word) = isWordPart := by
  unfold TokenKind.ofWord TokenKind.keyword?
  split <;> rfl

theorem takeWhile_append_of_head {p : Char → Bool} {text rest : List Char}
    (all : ∀ char ∈ text, p char) (stops : ∀ char ∈ rest.head?, p char = false) :
    (text ++ rest).takeWhile p = text := by
  rw [List.takeWhile_append_of_pos all]
  cases rest with
  | nil => simp
  | cons char rest => simp [stops char rfl]

/-- A spelling at the front of a text is found there. -/
theorem front_of_spells {kind : TokenKind} {text rest : List Char} (spells : Spells kind text)
    (parted : Parted kind rest) : Front.ofText (text ++ rest) = .token kind text.length := by
  cases spells with
  | number nonempty all =>
    cases text with
    | nil => exact absurd rfl nonempty
    | cons digit digits =>
      have digits_all := List.forall_mem_cons.mp all
      rw [List.cons_append, Front.ofText, if_pos digits_all.1,
        takeWhile_append_of_head digits_all.2 parted, List.length_cons, Nat.add_comm]
  | @string quote isQuote content free =>
    have code := isQuote_iff_toNat.mp isQuote
    have digit : ¬ quote.isDigit = true := by
      rw [isDigit_iff_toNat]
      omega
    rw [List.cons_append, List.append_assoc, Front.ofText, if_neg digit, if_pos isQuote,
      if_pos (by simp), List.cons_append, takeWhile_ne_append free]
    simp; omega
  | @word first start word all =>
    have code := isWordStart_iff_toNat.mp start
    have digit : ¬ first.isDigit = true := by
      rw [isDigit_iff_toNat]
      omega
    have quote : ¬ isQuote first = true := by
      rw [isQuote_iff_toNat]
      omega
    have stops : ∀ char ∈ rest.head?, isWordPart char = false := by
      intro char member
      rw [← goesOn_ofWord]
      exact parted char member
    rw [List.cons_append, Front.ofText, if_neg digit, if_neg quote, if_pos start,
      takeWhile_append_of_head all stops]
  | @symbol char _ isSymbol =>
    obtain ⟨digit, quote, word, -⟩ := symbolChars_apart char (mem_symbolChars_of_symbol? isSymbol)
    rw [List.cons_append, Front.ofText, if_neg (by simp [digit]), if_neg (by simp [quote]),
      if_neg (by simp [word]), isSymbol]
    rfl

/-! ## Steps from token to token -/

theorem behindGap_of_blank {char : Char} (blank : isBlank char) (rest : List Char)
    (position : Position) :
    Cursor.behindGap .blanks (char :: rest) position =
      Cursor.behindGap .blanks rest (position.next char) := by
  have slash : char ≠ '/' := by
    rintro rfl
    exact absurd blank (by decide)
  rw [Cursor.behindGap.eq_3 _ _ _ (fun _ h => absurd h slash) (fun _ h => absurd h slash),
    if_pos blank]

theorem behindGap_of_no_gap {char : Char} {rest : List Char} (blank : isBlank char = false)
    (comment : char = '/' → ∀ next ∈ rest.head?, next ≠ '/' ∧ next ≠ '*') (position : Position) :
    Cursor.behindGap .blanks (char :: rest) position = ⟨char :: rest, position⟩ := by
  rw [Cursor.behindGap.eq_3, if_neg (by simp [blank])]
  · rintro _ slash rfl
    exact (comment slash '/' rfl).1 rfl
  · rintro _ slash rfl
    exact (comment slash '*' rfl).2 rfl

/-- The first character of a spelling is visible, and it is a slash only in the operator. -/
theorem Spells.first {kind : TokenKind} {char : Char} {text : List Char}
    (h : Spells kind (char :: text)) :
    isBlank char = false ∧ (char = '/' → kind = .operator ∧ text = []) := by
  have apart {char : Char} {p : Prop} (above : 33 ≤ char.toNat) (below : char.toNat ≤ 126)
      (slash : char.toNat ≠ 47) : isBlank char = false ∧ (char = '/' → p) :=
    ⟨not_isBlank_of_toNat above below, fun h => absurd (congrArg Char.toNat h) slash⟩
  cases h with
  | number nonempty all =>
    have code := isDigit_iff_toNat.mp (all char List.mem_cons_self)
    exact apart (by omega) (by omega) (by omega)
  | string isQuote free =>
    have code := isQuote_iff_toNat.mp isQuote
    exact apart (by omega) (by omega) (by omega)
  | word start all =>
    have code := isWordStart_iff_toNat.mp start
    exact apart (by omega) (by omega) (by omega)
  | symbol isSymbol =>
    refine ⟨(symbolChars_apart char (mem_symbolChars_of_symbol? isSymbol)).2.2.2, ?_⟩
    rintro rfl
    cases isSymbol
    exact ⟨rfl, rfl⟩

/-- No gap stands before a token. -/
theorem behindGap_of_spells {kind : TokenKind} {text rest : List Char} (spells : Spells kind text)
    (parted : Parted kind rest) (position : Position) :
    Cursor.behindGap .blanks (text ++ rest) position = ⟨text ++ rest, position⟩ := by
  cases text with
  | nil => exact absurd rfl spells.ne_nil
  | cons char text =>
    obtain ⟨blank, operator⟩ := spells.first
    refine behindGap_of_no_gap blank ?_ position
    intro slash next member
    obtain ⟨rfl, rfl⟩ := operator slash
    simpa [goesOn] using parted next member

theorem Cursor.next_of_spells {kind : TokenKind} {text rest : List Char}
    (spells : Spells kind text) (parted : Parted kind rest) (position : Position) :
    (Cursor.mk (text ++ rest) position).next =
      .token ⟨kind, String.ofList text, position⟩ ⟨rest, position.after text⟩ := by
  simp only [Cursor.next, Cursor.skipGap, behindGap_of_spells spells parted,
    front_of_spells spells parted, Cursor.pass, List.take_left, List.drop_left]

theorem Cursor.feed_of_next {cursor behind : Cursor} {token : Token}
    (h : cursor.next = .token token behind) :
    cursor.feed = ⟨⟨token, behind⟩ :: behind.feed.lexemes, behind.feed.ending⟩ := by
  rw [Cursor.feed]
  split <;> simp_all

/-- A blank before a text changes nothing but positions. -/
theorem Cursor.feed_of_blank {char : Char} (blank : isBlank char) (rest : List Char)
    (position : Position) :
    (Cursor.mk (char :: rest) position).feed = (Cursor.mk rest (position.next char)).feed := by
  have same : (Cursor.mk (char :: rest) position).next =
      (Cursor.mk rest (position.next char)).next := by
    simp only [Cursor.next, Cursor.skipGap, behindGap_of_blank blank]
  rw [Cursor.feed, Cursor.feed]
  rw [same]

theorem Cursor.spells_of_next {cursor behind : Cursor} {token : Token}
    (h : cursor.next = .token token behind) : Spells token.kind token.text.toList := by
  simp only [Cursor.next] at h
  split at h <;> cases h
  rename_i front
  rw [String.toList_ofList]
  exact spells_of_front front

theorem Cursor.spells_of_mem_feed {cursor : Cursor} {lexeme : Lexeme}
    (h : lexeme ∈ cursor.feed.lexemes) : Spells lexeme.token.kind lexeme.token.text.toList := by
  fun_induction Cursor.feed cursor with
  | case1 cursor behind next => cases h
  | case2 cursor error behind next => cases h
  | case3 cursor token behind next more ih =>
    rcases List.mem_cons.mp h with rfl | later
    · exact Cursor.spells_of_next next
    · exact ih later

/-- The tokens of a text are spelled according to their kinds. -/
theorem spells_of_tokenize {text : String} {tokens : List Token} (h : tokenize text = .ok tokens) :
    ∀ token ∈ tokens, Spells token.kind token.text.toList := by
  intro token member
  simp only [tokenize, Feed.tokens] at h
  split at h <;> cases h
  obtain ⟨lexeme, found, rfl⟩ := List.mem_map.mp member
  exact Cursor.spells_of_mem_feed found

/-! ## Stretches of text -/

/-- The tokens up to the rest of a text have the given symbols, wherever the text stands. -/
def Scans (text : List Char) (symbols : List Symbol) (rest : List Char) : Prop :=
  ∀ position, ∃ (lexemes : List Lexeme) (behind : Position),
    (Cursor.mk text position).feed = ⟨lexemes ++ (Cursor.mk rest behind).feed.lexemes,
      (Cursor.mk rest behind).feed.ending⟩ ∧
    lexemes.map (fun lexeme => lexeme.token.symbol) = symbols

theorem Scans.refl (text : List Char) : Scans text [] text :=
  fun position => ⟨[], position, rfl, rfl⟩

theorem Scans.trans {first second third : List Char} {symbols symbols' : List Symbol}
    (h : Scans first symbols second) (h' : Scans second symbols' third) :
    Scans first (symbols ++ symbols') third := by
  intro position
  obtain ⟨lexemes, mid, feed, rfl⟩ := h position
  obtain ⟨lexemes', behind, feed', rfl⟩ := h' mid
  refine ⟨lexemes ++ lexemes', behind, ?_, List.map_append⟩
  rw [feed, feed', List.append_assoc]

theorem Scans.blank {char : Char} (blank : isBlank char) {text rest : List Char}
    {symbols : List Symbol} (h : Scans text symbols rest) : Scans (char :: text) symbols rest := by
  intro position
  rw [Cursor.feed_of_blank blank]
  exact h _

theorem Scans.token {kind : TokenKind} {text rest behind : List Char} {symbols : List Symbol}
    (spells : Spells kind text) (parted : Parted kind rest) (h : Scans rest symbols behind) :
    Scans (text ++ rest) (⟨kind, String.ofList text⟩ :: symbols) behind := by
  intro position
  obtain ⟨lexemes, last, feed, rfl⟩ := h (position.after text)
  refine ⟨⟨⟨kind, String.ofList text, position⟩, ⟨rest, position.after text⟩⟩ :: lexemes, last, ?_,
    rfl⟩
  rw [Cursor.feed_of_next (Cursor.next_of_spells spells parted position), feed]
  rfl

/-- Scanning to the end of a text gives all its tokens. -/
theorem Scans.tokenize {text : String} {symbols : List Symbol}
    (h : Scans text.toList symbols []) :
    ∃ tokens, tokenize text = .ok tokens ∧ tokens.map Token.symbol = symbols := by
  obtain ⟨lexemes, behind, feed, rfl⟩ := h .start
  have finished : (Cursor.mk [] behind).feed = ⟨[], .finish ⟨[], behind⟩⟩ := by
    rw [Cursor.feed]
    rfl
  refine ⟨lexemes.map Lexeme.token, ?_, by rw [List.map_map]; rfl⟩
  rw [TinyScript.tokenize, Cursor.ofText, feed, finished]
  simp [Feed.tokens]

end TinyScript
