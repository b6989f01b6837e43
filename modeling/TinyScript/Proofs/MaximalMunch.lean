import TinyScript.Proofs.Gaps

/-!
# Maximal munch

A text is taken apart into gaps and tokens, each token being the longest spelling at its place, as
far as that goes: up to the end of the text, or up to the first place where no spelling starts.
`Decomposes` says so without any reference to how the text is scanned. The tokens of a text are
those of this decomposition, and where it stops early, the report names the place and the character
there.
-/

namespace TinyScript

/-! ## Places in a text -/

/-- The place behind a text, by counting its characters, its lines, and the characters of its last
    line. -/
def Position.behind (before : List Char) : Position where
  offset := before.length
  line := before.count '\n' + 1
  column := (before.reverse.takeWhile (· ≠ '\n')).length + 1

theorem Position.behind_concat (before : List Char) (char : Char) :
    Position.behind (before ++ [char]) = (Position.behind before).next char := by
  by_cases newline : char = '\n'
  · subst newline
    simp [Position.behind, Position.next]
  · simp [Position.behind, Position.next, newline]

theorem Position.behind_append (before text : List Char) :
    Position.behind (before ++ text) = (Position.behind before).after text := by
  induction text generalizing before with
  | nil => rw [List.append_nil, Position.after_nil]
  | cons char text ih =>
    rw [Position.after_cons, ← Position.behind_concat, ← ih, List.append_assoc]
    rfl

/-! ## Longest spellings -/

/-- No spelling of a token starts the text. -/
def NoToken (text : List Char) : Prop :=
  ∀ kind word, word <+: text → ¬ Spells kind word

/-- A spelling that no longer one shares its place with; the rest stands behind it. -/
structure LongestToken (kind : TokenKind) (word rest : List Char) : Prop where
  spells : Spells kind word
  longest : ∀ other longer, longer <+: word ++ rest → Spells other longer →
    longer.length ≤ word.length

theorem length_le_takeWhile {p : Char → Bool} {run text : List Char} (start : run <+: text)
    (all : ∀ char ∈ run, p char = true) : run.length ≤ (text.takeWhile p).length := by
  obtain ⟨rest, rfl⟩ := start
  rw [List.takeWhile_append_of_pos all, List.length_append]
  exact Nat.le_add_right _ _

theorem front_of_symbol {char : Char} {kind : TokenKind} (h : TokenKind.symbol? char = some kind)
    (rest : List Char) : Front.ofText (char :: rest) = .token kind 1 := by
  obtain ⟨digit, quote, word, -⟩ := symbolChars_apart char (mem_symbolChars_of_symbol? h)
  rw [Front.ofText, if_neg (by simp [digit]), if_neg (by simp [quote]), if_neg (by simp [word]), h]

/-- Where a spelling starts a text, a token is found that is at least as long. -/
theorem front_of_prefix_spells {kind : TokenKind} {word text : List Char} (start : word <+: text)
    (spells : Spells kind word) :
    ∃ other length, Front.ofText text = .token other length ∧ word.length ≤ length := by
  cases spells with
  | number nonempty all =>
    cases word with
    | nil => exact absurd rfl nonempty
    | cons digit digits =>
      obtain ⟨rest, rfl⟩ := start
      obtain ⟨isDigit, others⟩ := List.forall_mem_cons.mp all
      refine ⟨.number, _, by rw [List.cons_append, Front.ofText, if_pos isDigit], ?_⟩
      have run := length_le_takeWhile (List.prefix_append digits rest) others
      rw [List.length_cons]
      omega
  | string isQuote free =>
    obtain ⟨rest, rfl⟩ := start
    exact ⟨.string, _, front_of_spells (.string isQuote free) (by simp [Parted, goesOn]), le_rfl⟩
  | @word first start' word all =>
    obtain ⟨rest, rfl⟩ := start
    have code := isWordStart_iff_toNat.mp start'
    have digit : ¬ first.isDigit = true := by
      rw [isDigit_iff_toNat]
      omega
    have quote : ¬ isQuote first = true := by
      rw [isQuote_iff_toNat]
      omega
    refine ⟨_, _, by rw [List.cons_append, Front.ofText, if_neg digit, if_neg quote,
      if_pos start'], ?_⟩
    have run := length_le_takeWhile (List.prefix_append word rest) all
    rw [List.length_cons, List.length_cons]
    omega
  | @symbol char _ isSymbol =>
    obtain ⟨rest, rfl⟩ := start
    exact ⟨kind, 1, front_of_symbol isSymbol rest, le_rfl⟩

theorem Spells.kind_unique {kind other : TokenKind} {word : List Char} (h : Spells kind word)
    (h' : Spells other word) : kind = other := by
  have first : Front.ofText (word ++ []) = .token kind word.length :=
    front_of_spells h (by simp [Parted])
  have second : Front.ofText (word ++ []) = .token other word.length :=
    front_of_spells h' (by simp [Parted])
  rw [first] at second
  exact (Front.token.inj second).1

/-- A token that is found is no longer than the text. -/
theorem Front.length_le_of_token {text : List Char} {kind : TokenKind} {length : Nat}
    (h : Front.ofText text = .token kind length) : length ≤ text.length := by
  cases text with
  | nil => cases h
  | cons char rest =>
    have run (p : Char → Bool) : (rest.takeWhile p).length ≤ rest.length :=
      (List.takeWhile_sublist p).length_le
    simp only [Front.ofText] at h
    split at h
    · cases h
      have := run Char.isDigit
      simp only [List.length_cons]
      omega
    · split at h
      · split at h
        · rename_i closed
          cases h
          obtain ⟨content, behind, rfl, free⟩ := List.eq_append_cons_of_mem closed
          rw [takeWhile_ne_append free]
          simp only [List.length_cons, List.length_append]
          omega
        · cases h
      · split at h
        · cases h
          have := run isWordPart
          simp only [List.length_cons]
          omega
        · split at h
          · cases h
            simp
          · cases h

/-- The token that is found at the front of a text is the longest one. -/
theorem front_eq_token_iff {kind : TokenKind} {word rest : List Char} :
    Front.ofText (word ++ rest) = .token kind word.length ↔ LongestToken kind word rest := by
  constructor
  · intro found
    refine ⟨?_, ?_⟩
    · have spells := spells_of_front found
      rwa [List.take_left] at spells
    · intro other longer start spells
      obtain ⟨kind', length, found', le⟩ := front_of_prefix_spells start spells
      rw [found] at found'
      cases found'
      exact le
  · rintro ⟨spells, longest⟩
    obtain ⟨other, length, found, le⟩ :=
      front_of_prefix_spells (List.prefix_append word rest) spells
    have within := Front.length_le_of_token found
    have spells' := spells_of_front found
    have bounded := longest other _ (List.take_prefix length _) spells'
    rw [List.length_take, Nat.min_eq_left within] at bounded
    obtain rfl : length = word.length := by omega
    rw [List.take_left] at spells'
    rw [found, spells.kind_unique spells']

theorem not_noToken_of_front {text : List Char} {kind : TokenKind} {length : Nat}
    (h : Front.ofText text = .token kind length) : ¬ NoToken text := by
  intro stuck
  exact stuck kind _ (List.take_prefix length text) (spells_of_front h)

/-- Where no token starts there is nothing, an open string, or a character without a use. -/
theorem front_of_noToken {char : Char} {rest : List Char} (stuck : NoToken (char :: rest)) :
    Front.ofText (char :: rest) = if isQuote char then .openString char else .stray char := by
  have other {kind : TokenKind} {length : Nat} :
      Front.ofText (char :: rest) ≠ .token kind length := by
    intro found
    exact not_noToken_of_front found stuck
  simp only [Front.ofText] at other ⊢
  split
  · rename_i digit
    simp [digit] at other
  · rename_i digit
    split
    · rename_i quote
      split
      · rename_i closed
        simp [digit, quote, closed] at other
      · rfl
    · rename_i quote
      split
      · rename_i start
        simp [digit, quote, start] at other
      · rename_i start
        split
        · rename_i found
          simp [digit, quote, start, found] at other
        · rfl

/-! ## Decompositions -/

/-- Gaps and longest tokens lead from one place of a text to another, which a gap may come before.
    Each place is given by the characters before it and those behind it; a token carries the place
    of its first character. -/
inductive Decomposes : List Char → List Char → List Token → List Char → List Char → Prop
  | gap {before gap rest : List Char} (skipped : Gap gap rest) (free : GapFree rest) :
      Decomposes before (gap ++ rest) [] (before ++ gap) rest
  | token {before gap word rest last behind : List Char} {kind : TokenKind} {tokens : List Token}
      (skipped : Gap gap (word ++ rest)) (free : GapFree (word ++ rest))
      (longest : LongestToken kind word rest)
      (more : Decomposes (before ++ gap ++ word) rest tokens last behind) :
      Decomposes before (gap ++ (word ++ rest))
        (⟨kind, String.ofList word, .behind (before ++ gap)⟩ :: tokens) last behind

theorem Decomposes.gapFree {before text last behind : List Char} {tokens : List Token}
    (h : Decomposes before text tokens last behind) : GapFree behind := by
  induction h with
  | gap skipped free => exact free
  | token skipped free longest more ih => exact ih

/-- Every text is decomposed as far as tokens start. -/
theorem exists_decomposes (before text : List Char) :
    ∃ tokens last behind, Decomposes before text tokens last behind ∧ NoToken behind := by
  induction length : text.length using Nat.strong_induction_on generalizing before text with
  | _ count ih =>
    obtain ⟨gap, rest, rfl, skipped, free⟩ := exists_gap text
    by_cases stuck : NoToken rest
    · exact ⟨[], before ++ gap, rest, .gap skipped free, stuck⟩
    · obtain ⟨kind, word, start, spells⟩ : ∃ kind word, word <+: rest ∧ Spells kind word := by
        simpa [NoToken] using stuck
      obtain ⟨kind, size, found, -⟩ := front_of_prefix_spells start spells
      have within := Front.length_le_of_token found
      obtain ⟨positive, -⟩ := Front.length_pos_of_token found
      obtain ⟨word, behind, rfl, rfl⟩ : ∃ word behind, rest = word ++ behind ∧ size = word.length :=
        ⟨rest.take size, rest.drop size, (List.take_append_drop size rest).symm, by simp [within]⟩
      have shorter : behind.length < count := by
        rw [← length, List.length_append, List.length_append]
        omega
      obtain ⟨tokens, last, stop, more, stuck⟩ := ih _ shorter (before ++ gap ++ word) behind rfl
      exact ⟨_, last, stop, .token skipped free (front_eq_token_iff.mp found) more, stuck⟩

namespace Cursor

/-- A gap before a text changes nothing but positions. -/
theorem feed_gap {gap rest : List Char} (h : Gap gap rest) (position : Position) :
    (Cursor.mk (gap ++ rest) position).feed = (Cursor.mk rest (position.after gap)).feed := by
  have same : (Cursor.mk (gap ++ rest) position).next =
      (Cursor.mk rest (position.after gap)).next := by
    simp only [Cursor.next, Cursor.skipGap, behindGap_gap h]
  rw [Cursor.feed, Cursor.feed]
  rw [same]

theorem next_of_longest {gap word rest : List Char} {kind : TokenKind}
    (skipped : Gap gap (word ++ rest)) (free : GapFree (word ++ rest))
    (longest : LongestToken kind word rest) (position : Position) :
    (Cursor.mk (gap ++ (word ++ rest)) position).next =
      .token ⟨kind, String.ofList word, position.after gap⟩
        ⟨rest, position.after (gap ++ word)⟩ := by
  simp only [Cursor.next, skipGap_gap skipped free, front_eq_token_iff.mpr longest, Cursor.pass,
    List.take_left, List.drop_left, Position.after_append]

theorem feed_of_finish {cursor behind : Cursor} (h : cursor.next = .finish behind) :
    cursor.feed = ⟨[], .finish behind⟩ := by
  rw [Cursor.feed]
  split <;> simp_all

theorem feed_of_fault {cursor behind : Cursor} {error : LexicalError}
    (h : cursor.next = .fault error behind) : cursor.feed = ⟨[], .fault error behind⟩ := by
  rw [Cursor.feed]
  split <;> simp_all

theorem feed_nil (position : Position) :
    (Cursor.mk [] position).feed = ⟨[], .finish ⟨[], position⟩⟩ :=
  feed_of_finish rfl

theorem feed_of_noToken {char : Char} {rest : List Char} (free : GapFree (char :: rest))
    (stuck : NoToken (char :: rest)) (position : Position) :
    ∃ cursor, (Cursor.mk (char :: rest) position).feed = ⟨[], .fault
      (if isQuote char then .openString char position else .strayCharacter char position)
      cursor⟩ := by
  have stays : (Cursor.mk (char :: rest) position).skipGap = ⟨char :: rest, position⟩ :=
    skipGap_gap (.nil _) free position
  by_cases quote : isQuote char = true
  · refine ⟨(Cursor.mk (char :: rest) position).pass (char :: rest).length, ?_⟩
    apply feed_of_fault
    simp only [Cursor.next, stays, front_of_noToken stuck, quote, if_true]
  · refine ⟨⟨char :: rest, position⟩, ?_⟩
    apply feed_of_fault
    simp only [Cursor.next, stays, front_of_noToken stuck, quote]
    rfl

/-- The tokens of a decomposition come first among those from its start on. -/
theorem feed_of_decomposes {before text last behind : List Char} {tokens : List Token}
    (h : Decomposes before text tokens last behind) :
    ∃ lexemes : List Lexeme, lexemes.map Lexeme.token = tokens ∧
      (Cursor.mk text (.behind before)).feed =
        ⟨lexemes ++ (Cursor.mk behind (.behind last)).feed.lexemes,
          (Cursor.mk behind (.behind last)).feed.ending⟩ := by
  induction h with
  | gap skipped free =>
    refine ⟨[], rfl, ?_⟩
    rw [feed_gap skipped, ← Position.behind_append]
    rfl
  | @token before gap word rest last behind kind tokens skipped free longest more ih =>
    obtain ⟨lexemes, rfl, feed⟩ := ih
    refine ⟨⟨⟨kind, String.ofList word, .behind (before ++ gap)⟩,
      ⟨rest, .behind (before ++ gap ++ word)⟩⟩ :: lexemes, rfl, ?_⟩
    rw [feed_of_next (next_of_longest skipped free longest _), ← Position.behind_append,
      ← Position.behind_append, ← List.append_assoc, feed]
    rfl

end Cursor

/-! ## Tokens of a text -/

/-- The report of a place where a text does not go on with a token. -/
inductive FaultReport (position : Position) : List Char → Report → Prop
  | strayCharacter {char : Char} {rest : List Char} (other : isQuote char = false) :
      FaultReport position (char :: rest) ⟨.lexical, "unexpected character '" ++ char.toString ++
        "' at offset " ++ toString position.offset, position⟩
  | openString {quote : Char} {rest : List Char} (isQuote : isQuote quote = true) :
      FaultReport position (quote :: rest)
        ⟨.lexical, "unterminated string literal starting with " ++ quote.toString ++
          " at offset " ++ toString position.offset, position⟩

theorem tokenize_of_decomposes {text : String} {tokens : List Token} {last : List Char}
    (h : Decomposes [] text.toList tokens last []) : tokenize text = .ok tokens := by
  obtain ⟨lexemes, rfl, feed⟩ := Cursor.feed_of_decomposes h
  rw [Cursor.feed_nil] at feed
  have start : Cursor.ofText text = ⟨text.toList, .behind []⟩ := rfl
  rw [tokenize, start, feed]
  simp [Feed.tokens]

theorem tokenize_of_noToken {text : String} {tokens : List Token} {last behind : List Char}
    {report : Report} (h : Decomposes [] text.toList tokens last behind) (stuck : NoToken behind)
    (fault : FaultReport (.behind last) behind report) :
    (tokenize text).mapError LexicalError.report = .error report := by
  have start : Cursor.ofText text = ⟨text.toList, .behind []⟩ := rfl
  obtain ⟨lexemes, rfl, feed⟩ := Cursor.feed_of_decomposes h
  cases fault with
  | strayCharacter other =>
    obtain ⟨cursor, stopped⟩ := Cursor.feed_of_noToken h.gapFree stuck (.behind last)
    rw [tokenize, start, feed, stopped]
    simp [Feed.tokens, other, Except.mapError, LexicalError.report]
  | openString isQuote =>
    obtain ⟨cursor, stopped⟩ := Cursor.feed_of_noToken h.gapFree stuck (.behind last)
    rw [tokenize, start, feed, stopped]
    simp [Feed.tokens, isQuote, Except.mapError, LexicalError.report]

theorem exists_faultReport (position : Position) {text : List Char} (nonempty : text ≠ []) :
    ∃ report, FaultReport position text report := by
  cases text with
  | nil => exact absurd rfl nonempty
  | cons char rest =>
    by_cases quote : isQuote char = true
    · exact ⟨_, .openString quote⟩
    · exact ⟨_, .strayCharacter (by simpa using quote)⟩

/-- The row of tokens reaches the end of the text, or stops at a place that is reported. -/
theorem tokenize_cases (text : String) :
    (∃ tokens last, Decomposes [] text.toList tokens last [] ∧ tokenize text = .ok tokens) ∨
    (∃ tokens last behind report, Decomposes [] text.toList tokens last behind ∧ NoToken behind ∧
      FaultReport (.behind last) behind report ∧
      (tokenize text).mapError LexicalError.report = .error report) := by
  obtain ⟨tokens, last, behind, decomposes, stuck⟩ := exists_decomposes [] text.toList
  by_cases finished : behind = []
  · subst finished
    exact .inl ⟨tokens, last, decomposes, tokenize_of_decomposes decomposes⟩
  · obtain ⟨report, fault⟩ := exists_faultReport (.behind last) finished
    exact .inr ⟨tokens, last, behind, report, decomposes, stuck, fault,
      tokenize_of_noToken decomposes stuck fault⟩

theorem exists_decomposes_of_tokenize {text : String} {tokens : List Token}
    (h : tokenize text = .ok tokens) : ∃ last, Decomposes [] text.toList tokens last [] := by
  rcases tokenize_cases text with
    ⟨found, last, decomposes, tokenized⟩ | ⟨_, _, _, _, _, _, _, failed⟩
  · rw [tokenized] at h
    cases h
    exact ⟨last, decomposes⟩
  · rw [h] at failed
    cases failed

end TinyScript
