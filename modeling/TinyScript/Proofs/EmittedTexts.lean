import TinyScript.Cpp.Emit
import TinyScript.Program.ToJson
import TinyScript.Proofs.Acceptance
import TinyScript.Proofs.MaximalMunch

/-!
# Emitted texts are no programs

The statements of a C++ text start with a C++ type and a blank, an include block starts with a hash,
and the text of a tree starts with a brace. No statement of the source language starts in one of
these ways. So neither the C++ text nor the tree of a program can be read as a program again, unless
the C++ text is empty.
-/

namespace TinyScript

/-! ## How a C++ text starts -/

/-- The C++ text of a statement starts with a C++ type and a blank. -/
theorem Cpp.outerText_toList {indent text : String} {statement : Statement}
    (h : Cpp.outerText indent statement = .ok text) :
    ∃ sourceType rest, text.toList = (Cpp.typeName sourceType).toList ++ ' ' :: rest := by
  cases statement with
  | variableDeclaration name typeName value =>
    cases h
    exact ⟨typeName, _, by simp [Cpp.variableText]; rfl⟩
  | functionDeclaration name parameters returnType body =>
    rw [Cpp.outerText, Cpp.functionText] at h
    cases emitted : body.mapM (Cpp.innerText name) with
    | error error =>
      rw [emitted] at h
      cases h
    | ok lines =>
      rw [emitted] at h
      cases h
      exact ⟨returnType, _, by simp; rfl⟩
  | returnStatement argument => cases h

theorem Cpp.bodyText_cons {indent text : String} {statement : Statement} {rest : List Statement}
    (h : Cpp.bodyText indent ⟨statement :: rest⟩ = .ok text) :
    ∃ sourceType more, text.toList = (Cpp.typeName sourceType).toList ++ ' ' :: more := by
  rw [Cpp.bodyText, List.mapM_cons] at h
  cases emitted : Cpp.outerText indent statement with
  | error error =>
    rw [emitted] at h
    cases h
  | ok first =>
    rw [emitted] at h
    cases others : rest.mapM (Cpp.outerText indent) with
    | error error =>
      rw [others] at h
      cases h
    | ok texts =>
      rw [others] at h
      cases h
      obtain ⟨sourceType, more, starts⟩ := Cpp.outerText_toList emitted
      cases texts with
      | nil => exact ⟨sourceType, more ++ ['\n'], by simp [starts]⟩
      | cons second texts =>
        refine ⟨sourceType, more ++ "\n\n".toList ++
          (String.intercalate "\n\n" (second :: texts) ++ "\n").toList, ?_⟩
        simp [starts, String.intercalate_cons_cons]

/-! ## Texts that are no programs -/

/-- A text that starts with a token which starts no statement. -/
theorem Program.parse_ne_ok_of_first {source : String} {kind : TokenKind} {word rest : List Char}
    (text : source.toList = word ++ rest) (spells : Spells kind word) (parted : Parted kind rest)
    (other : kind ∉ statementKinds) (program : Program) : Program.parse source ≠ .ok program := by
  intro parsed
  obtain ⟨tokens, phrase, tokenized, symbols, -, -⟩ := Program.parse_eq_ok_iff_phrase.mp parsed
  obtain ⟨-, rfl⟩ := Feed.tokens_eq_ok_iff.mp tokenized
  have start : Cursor.ofText source = ⟨word ++ rest, .start⟩ := by rw [Cursor.ofText, text]
  rw [start, Cursor.feed_of_next (Cursor.next_of_spells spells parted _)] at symbols
  obtain ⟨phrases⟩ := phrase
  cases phrases with
  | nil => cases symbols
  | cons statement phrases =>
    obtain ⟨symbol, others, head, member⟩ := statement.startsIn
    rw [ProgramPhrase.symbols, StatementPhrase.bodySymbols, head] at symbols
    obtain ⟨rfl, -⟩ := List.cons.inj symbols
    exact other member

theorem Program.parse_ne_ok_of_hash {source : String} {rest : List Char}
    (text : source.toList = '#' :: rest) (program : Program) :
    Program.parse source ≠ .ok program := by
  intro parsed
  obtain ⟨tokens, phrase, tokenized, -⟩ := Program.parse_eq_ok_iff_phrase.mp parsed
  obtain ⟨⟨cursor, finish⟩, -⟩ := Feed.tokens_eq_ok_iff.mp tokenized
  have start : Cursor.ofText source = ⟨'#' :: rest, .start⟩ := by rw [Cursor.ofText, text]
  have next : (Cursor.mk ('#' :: rest) .start).next =
      .fault (.strayCharacter '#' .start) ⟨'#' :: rest, .start⟩ := rfl
  rw [start, Cursor.feed_of_fault next] at finish
  cases finish

/-- A text that starts with a word which starts no statement. -/
theorem Program.parse_ne_ok_of_word {source : String} {first : Char} {word rest : List Char}
    (text : source.toList = first :: word ++ rest) (start : isWordStart first = true)
    (all : word.all isWordPart = true) (stops : ∀ char ∈ rest.head?, isWordPart char = false)
    (other : TokenKind.ofWord (String.ofList (first :: word)) ∉ statementKinds)
    (program : Program) : Program.parse source ≠ .ok program := by
  refine Program.parse_ne_ok_of_first text (.word start (List.all_eq_true.mp all)) ?_ other program
  rw [Parted, goesOn_ofWord]
  exact stops

/-- The text of a tree starts with a brace. -/
theorem Program.parse_toJsonText_ne_ok (program other : Program) :
    Program.parse program.toJsonText ≠ .ok other := by
  obtain ⟨rest, text⟩ : ∃ rest, program.toJsonText.toList = ['\x7b'] ++ rest := by
    simp [Program.toJsonText, Json.pretty, Program.toJson, Json.render]
  have spells : Spells .lBrace ['\x7b'] := .symbol rfl
  exact Program.parse_ne_ok_of_first text spells (by simp [Parted, goesOn]) (by decide) other

/-- A text that starts with a C++ type and a blank. -/
theorem Cpp.parse_ne_ok_of_typeName {source : String} {sourceType : String} {rest : List Char}
    (text : source.toList = (Cpp.typeName sourceType).toList ++ ' ' :: rest) (program : Program) :
    Program.parse source ≠ .ok program := by
  unfold Cpp.typeName at text
  split at text
  · have word : source.toList = 's' :: ['t', 'd'] ++ ("::string".toList ++ ' ' :: rest) := text
    exact Program.parse_ne_ok_of_word word rfl rfl (by simp; decide) (by decide) program
  · have word : source.toList = 'i' :: ['n', 't'] ++ ' ' :: rest := text
    exact Program.parse_ne_ok_of_word word rfl rfl (by simp; decide) (by decide) program

/-- The C++ text of a program is no program, unless it is empty. -/
theorem Cpp.emit_eq_source_iff {indent source : String} {program : Program}
    (parsed : Program.parse source = .ok program) :
    Cpp.emit indent program = .ok source ↔ source = "" := by
  constructor
  · intro emitted
    rw [Cpp.emit] at emitted
    cases body : Cpp.bodyText indent program with
    | error error =>
      rw [body] at emitted
      cases emitted
    | ok text =>
      rw [body] at emitted
      obtain ⟨statements⟩ := program
      cases statements with
      | nil =>
        cases body
        cases emitted
        rfl
      | cons statement rest =>
        obtain ⟨sourceType, more, starts⟩ := Cpp.bodyText_cons body
        exfalso
        by_cases included : (Cpp.includesOf ⟨statement :: rest⟩).isEmpty = true
        · rw [Cpp.Includes.render, if_pos included] at emitted
          cases emitted
          exact Cpp.parse_ne_ok_of_typeName (by simpa using starts) _ parsed
        · rw [Cpp.Includes.render, if_neg included] at emitted
          cases emitted
          cases headers : (Cpp.includesOf ⟨statement :: rest⟩).headers with
          | nil => simp [Cpp.Includes.isEmpty, headers] at included
          | cons header headers =>
            rw [headers] at parsed
            exact Program.parse_ne_ok_of_hash (by simp; rfl) _ parsed
  · rintro rfl
    have empty : Program.parse "" = .ok ⟨[]⟩ := by cbv
    rw [empty] at parsed
    cases parsed
    rfl

end TinyScript
