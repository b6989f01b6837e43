import TinyScript.Proofs.CppExpressions

/-!
# String literals in C++ text

A literal is scanned character by character up to the first quote that no backslash escapes. What
has been escaped is scanned back to the text it stands for, whatever comes behind its closing
quote: backslashes come in pairs, or one alone before a quote or a letter, so that every quote
inside has an odd number of backslashes before it.
-/

namespace TinyScript.Cpp

/-- Reads on inside a literal up to the quote that closes it: the text that the literal denotes, and
    what stands behind it. -/
def scanInside? : Part → List Char → Option (String × List Char)
  | _, [] => none
  | part, char :: rest =>
    match step? part char with
    | some ([.literal value], _) => some (value, rest)
    | some ([], next) => scanInside? next rest
    | _ => none

/-- Reads the literal at the front of a text: the text that it denotes, and what stands behind
    it. -/
def scanLiteral? : List Char → Option (String × List Char)
  | '"' :: rest => scanInside? (.literal []) rest
  | _ => none

theorem Inside.scanInside? {part next : Part} {text : List Char} (h : Inside part text next)
    (rest : List Char) : scanInside? part (text ++ rest) = Cpp.scanInside? next rest := by
  induction h with
  | nil part => rfl
  | cons taken _ ih =>
    rw [List.cons_append, Cpp.scanInside?, taken]
    exact ih

theorem scanLiteral?_literal (value : String) (rest : List Char) :
    scanLiteral? ((literal value).toList ++ rest) = some (value, rest) := by
  have text : (literal value).toList ++ rest =
      '"' :: (value.toList.flatMap escapeChar ++ '"' :: rest) := by
    simp [literal, escape]
  have closed : step? (.literal value.toList) '"' =
      some ([.literal (String.ofList value.toList)], .gap) := rfl
  rw [text, scanLiteral?, (inside_escape value.toList []).scanInside?, List.nil_append, scanInside?,
    closed, String.ofList_toList]

/-! ## Characters of an escaped text -/

/-- A character is escaped by a backslash and a second character, or it is none that has to be. -/
theorem escapeChar_cases (char : Char) :
    (∃ second, escapeChar char = ['\\', second] ∧ second ∈ ['"', '\\', 'n', 'r', 't']) ∨
      escapeChar char = [char] ∧ char ∉ ['"', '\\', '\n', '\r', '\t'] := by
  unfold escapeChar
  split
  · exact .inl ⟨_, rfl, by decide⟩
  · exact .inl ⟨_, rfl, by decide⟩
  · exact .inl ⟨_, rfl, by decide⟩
  · exact .inl ⟨_, rfl, by decide⟩
  · exact .inl ⟨_, rfl, by decide⟩
  · rename_i quote backslash newline carriageReturn tab
    refine .inr ⟨rfl, ?_⟩
    simp only [List.mem_cons, List.not_mem_nil, or_false, not_or]
    exact ⟨quote, backslash, newline, carriageReturn, tab⟩

theorem visible_of_mem_escape {value : List Char} {char : Char}
    (member : char ∈ value.flatMap escapeChar) : char ∉ ['\n', '\r', '\t'] := by
  obtain ⟨source, -, member⟩ := List.mem_flatMap.mp member
  rcases escapeChar_cases source with ⟨second, escaped, visible⟩ | ⟨plain, visible⟩
  · rw [escaped] at member
    rcases List.mem_pair.mp member with rfl | rfl
    · decide
    · simp only [List.mem_cons, List.not_mem_nil, or_false] at visible
      rcases visible with rfl | rfl | rfl | rfl | rfl <;> decide
  · rw [plain, List.mem_singleton] at member
    subst member
    exact fun blank => visible (List.mem_of_mem_tail (List.mem_of_mem_tail blank))

/-- The number of backslashes at the end of a text. -/
def backslashesBehind (text : List Char) : Nat :=
  (text.reverse.takeWhile (· = '\\')).length

/-- Whether a character behind a text is escaped: of the backslashes right before it, each but the
    last is taken up by another one. -/
def IsEscaped (before : List Char) : Prop :=
  Odd (backslashesBehind before)

instance : DecidablePred IsEscaped :=
  fun before => inferInstanceAs (Decidable (Odd (backslashesBehind before)))

theorem isEscaped_append {first : List Char} (even : Even (backslashesBehind first))
    (second : List Char) : IsEscaped (first ++ second) ↔ IsEscaped second := by
  unfold IsEscaped backslashesBehind at *
  rw [List.reverse_append, List.takeWhile_append]
  split
  · rename_i whole
    rw [List.length_append, Nat.odd_add, whole]
    simp [even]
  · rfl

theorem even_backslashesBehind_escapeChar (char : Char) :
    Even (backslashesBehind (escapeChar char)) := by
  rcases escapeChar_cases char with ⟨second, escaped, -⟩ | ⟨plain, visible⟩
  · rw [escaped]
    by_cases backslash : second = '\\'
    · subst backslash
      decide
    · simp [backslashesBehind, backslash]
  · have other : char ≠ '\\' := by
      rintro rfl
      exact visible (by decide)
    rw [plain]
    simp [backslashesBehind, other]

theorem eq_backslash_of_escapeChar {char : Char} {before behind : List Char}
    (h : escapeChar char = before ++ '"' :: behind) : before = ['\\'] := by
  rcases escapeChar_cases char with ⟨second, escaped, -⟩ | ⟨plain, visible⟩
  · rw [escaped] at h
    cases before with
    | nil => simp at h
    | cons first before =>
      cases before with
      | nil =>
        obtain ⟨rfl, -⟩ := List.cons.inj h
        rfl
      | cons next before => simp at h
  · rw [plain] at h
    cases before with
    | nil =>
      obtain ⟨rfl, -⟩ := List.cons.inj h
      exact absurd (by decide) visible
    | cons first before => simp at h

/-- Every quote in an escaped text is escaped. -/
theorem isEscaped_of_flatMap {value before behind : List Char}
    (h : value.flatMap escapeChar = before ++ '"' :: behind) : IsEscaped before := by
  induction value generalizing before with
  | nil => simp at h
  | cons char value ih =>
    rw [List.flatMap_cons] at h
    have even := even_backslashesBehind_escapeChar char
    rcases List.append_eq_append_iff.mp h with ⟨more, rfl, rest⟩ | ⟨more, first, rest⟩
    · exact (isEscaped_append even more).mpr (ih rest)
    · cases more with
      | nil =>
        rw [List.append_nil] at first
        rw [← first, ← List.append_nil (escapeChar char)]
        exact (isEscaped_append even []).mpr (ih rest.symm)
      | cons quote more =>
        obtain ⟨rfl, -⟩ := List.cons.inj rest
        rw [eq_backslash_of_escapeChar first]
        decide

/-- A text in quotes is scanned as a literal that denotes exactly that text, up to the quote
    behind it and no further, once it is escaped. The escaped text goes on in one line, without
    tabs, and no quote in it could close the literal. -/
theorem scanLiteral?_escape (value rest : String) :
    scanLiteral? ("\"" ++ escape value ++ "\"" ++ rest).toList = some (value, rest.toList) ∧
      '\n' ∉ (escape value).toList ∧ '\r' ∉ (escape value).toList ∧ '\t' ∉ (escape value).toList ∧
      ∀ before behind, (escape value).toList = before ++ '"' :: behind → IsEscaped before := by
  have escaped : (escape value).toList = value.toList.flatMap escapeChar := by
    rw [escape, String.toList_ofList]
  have scanned := scanLiteral?_literal value rest.toList
  rw [literal, ← String.toList_append] at scanned
  rw [escaped]
  refine ⟨scanned, ?_, ?_, ?_, fun before behind => isEscaped_of_flatMap⟩
  · exact fun member => visible_of_mem_escape member (by decide)
  · exact fun member => visible_of_mem_escape member (by decide)
  · exact fun member => visible_of_mem_escape member (by decide)

/-- A backslash before a quote, and a quote right behind the literal. -/
theorem scanLiteral?_escape_backslash :
    (escape "\\\"").toList = ['\\', '\\', '\\'] ++ '"' :: [] ∧
      IsEscaped ['\\', '\\', '\\'] ∧
      scanLiteral? ("\"" ++ escape "\\\"" ++ "\"" ++ "\"").toList = some ("\\\"", ['"']) := by
  have escaped : (escape "\\\"").toList = ['\\', '\\', '\\'] ++ '"' :: [] := by decide
  obtain ⟨scanned, -, -, -, quotes⟩ := scanLiteral?_escape "\\\"" "\""
  exact ⟨escaped, quotes _ _ escaped, scanned⟩

end TinyScript.Cpp
