import TinyScript.Proofs.JsonRoundTrip

/-!
# How deep the text of a program is nested

A walk through a JSON text that minds its strings counts the arrays and objects that are open. In
the text of a value the greatest count is the depth of the value, so the limit of 127 levels of the
reader can be told from the text: any tree of statements, whatever its strings are, is restored up
to the limit and refused as a syntax error behind it, as long as its numbers are whole and small.
-/

namespace TinyScript

/-- Where a walk through a JSON text stands: outside of strings, inside of one, or behind a
    backslash inside of one. -/
inductive Nesting.Place where
  | outside
  | quoted
  | escaped
  deriving DecidableEq, Repr

/-- What a walk through a JSON text has counted: the arrays and objects that are open, and the most
    that were open at once. -/
structure Nesting where
  level : Nat
  deepest : Nat
  place : Nesting.Place
  deriving DecidableEq, Repr

namespace Nesting

/-- One character of the walk. -/
def step (nesting : Nesting) (char : Char) : Nesting :=
  match nesting.place with
  | .outside =>
    if char = '"' then { nesting with place := .quoted }
    else if char = '[' ∨ char = '\x7b' then
      ⟨nesting.level + 1, max nesting.deepest (nesting.level + 1), .outside⟩
    else if char = ']' ∨ char = '\x7d' then { nesting with level := nesting.level - 1 }
    else nesting
  | .quoted =>
    if char = '"' then { nesting with place := .outside }
    else if char = '\\' then { nesting with place := .escaped }
    else nesting
  | .escaped => { nesting with place := .quoted }

/-- The walk through a text. -/
def walk (nesting : Nesting) (text : List Char) : Nesting :=
  text.foldl step nesting

/-- The deepest nesting of arrays and objects in a JSON text. -/
def ofText (text : String) : Nat :=
  (walk ⟨0, 0, .outside⟩ text.toList).deepest

@[simp]
theorem walk_nil (nesting : Nesting) : nesting.walk [] = nesting :=
  rfl

@[simp]
theorem walk_cons (nesting : Nesting) (char : Char) (text : List Char) :
    nesting.walk (char :: text) = (nesting.step char).walk text :=
  rfl

@[simp]
theorem walk_append (nesting : Nesting) (text more : List Char) :
    nesting.walk (text ++ more) = (nesting.walk text).walk more :=
  List.foldl_append

variable (level deepest : Nat)

/-! ## Steps -/

/-- The characters that a walk outside of strings minds. -/
def marks : List Char :=
  ['"', '[', '\x7b', ']', '\x7d']

/-- Neither a bracket nor a quote. -/
def IsPlain (char : Char) : Prop :=
  char ∉ marks

@[simp]
theorem step_quote : step ⟨level, deepest, .outside⟩ '"' = ⟨level, deepest, .quoted⟩ :=
  rfl

theorem step_open {char : Char} (h : char = '[' ∨ char = '\x7b') :
    step ⟨level, deepest, .outside⟩ char =
      ⟨level + 1, max deepest (level + 1), .outside⟩ := by
  rcases h with rfl | rfl <;> rfl

theorem step_close {char : Char} (h : char = ']' ∨ char = '\x7d') :
    step ⟨level + 1, deepest, .outside⟩ char = ⟨level, deepest, .outside⟩ := by
  rcases h with rfl | rfl <;> rfl

theorem step_plain {char : Char} (plain : IsPlain char) :
    step ⟨level, deepest, .outside⟩ char = ⟨level, deepest, .outside⟩ := by
  simp only [IsPlain, marks, List.mem_cons, List.not_mem_nil, or_false, not_or] at plain
  simp [step, plain]

theorem walk_plain {text : List Char} (plain : ∀ char ∈ text, IsPlain char) :
    walk ⟨level, deepest, .outside⟩ text = ⟨level, deepest, .outside⟩ := by
  induction text with
  | nil => rfl
  | cons char text ih =>
    rw [List.forall_mem_cons] at plain
    rw [walk_cons, step_plain level deepest plain.1, ih plain.2]

/-! ## Texts that open and close nothing -/

theorem walk_comma : walk ⟨level, deepest, .outside⟩ ",".toList = ⟨level, deepest, .outside⟩ :=
  walk_plain level deepest (by simp [IsPlain, marks])

/-- The walk stays inside of a string at an escaped character, also if that is a quote. -/
theorem walk_escapeChar (char : Char) :
    walk ⟨level, deepest, .quoted⟩ (Json.escapeChar char) = ⟨level, deepest, .quoted⟩ := by
  unfold Json.escapeChar
  split
  case h_8 quote backslash _ _ _ _ _ =>
    by_cases control : char.toNat < 0x20
    · have digits : ∀ value < 32, Nat.digitChar (value / 16) ∉ ['"', '\\'] ∧
          Nat.digitChar (value % 16) ∉ ['"', '\\'] := by decide
      have digit := digits char.toNat control
      simp only [List.mem_cons, List.not_mem_nil, or_false, not_or] at digit
      simp [control, Json.hexEscape, step, digit]
    · simp only [control, if_false, walk_cons, walk_nil]
      have quote : char ≠ '"' := quote
      have backslash : char ≠ '\\' := backslash
      simp [step, quote, backslash]
  all_goals rfl

theorem walk_escaped (chars : List Char) :
    walk ⟨level, deepest, .quoted⟩ (chars.flatMap Json.escapeChar) =
      ⟨level, deepest, .quoted⟩ := by
  induction chars with
  | nil => rfl
  | cons char chars ih => rw [List.flatMap_cons, walk_append, walk_escapeChar, ih]

/-- Brackets in a string are not counted. -/
theorem walk_quote (value : String) :
    walk ⟨level, deepest, .outside⟩ (Json.quote value).toList = ⟨level, deepest, .outside⟩ := by
  rw [Json.quote_toList, walk_cons, walk_append, step_quote, walk_escaped]
  rfl

theorem IsPlain.of_test {test : Char → Bool} (no : marks.all (fun mark => !test mark) = true)
    {char : Char} (h : test char = true) : IsPlain char := by
  intro member
  have refused := List.all_eq_true.mp no char member
  simp [h] at refused

theorem IsPlain.of_isDigit {char : Char} (h : char.isDigit = true) : IsPlain char :=
  .of_test (by decide : marks.all (fun mark => !mark.isDigit) = true) h

theorem IsPlain.of_isSpace {char : Char} (h : Outline.isSpace char = true) : IsPlain char :=
  .of_test (by decide : marks.all (fun mark => !Outline.isSpace mark) = true) h

theorem isPlain_of_mem_render (number : JsonNumber) :
    ∀ char ∈ number.render.toList, IsPlain char := by
  obtain ⟨whole, -, fraction, exponent⟩ := number.numeral_proper
  have row {digits : List Char} (h : ∀ char ∈ digits, char.isDigit = true) :
      ∀ char ∈ digits, IsPlain char := fun char member => .of_isDigit (h char member)
  rw [← number.numeral_text, JsonNumeral.text]
  simp only [List.forall_mem_append]
  refine ⟨⟨⟨?sign, row whole.isDigit⟩, ?fraction⟩, ?exponent⟩
  case sign => cases number.numeral.negative <;> simp [IsPlain, marks]
  case fraction =>
    split
    · simp
    · rw [List.forall_mem_cons]
      exact ⟨by simp [IsPlain, marks], row fraction⟩
  case exponent =>
    cases written : number.numeral.exponent with
    | none => simp [JsonNumeral.exponentText]
    | some part =>
      obtain ⟨below, digits⟩ := part
      simp only [JsonNumeral.exponentText, Option.elim_some, List.forall_mem_cons]
      refine ⟨by simp [IsPlain, marks], ?_, row (exponent _ (by rw [written]; rfl)).isDigit⟩
      cases below <;> simp [IsPlain, marks]

end Nesting

/-! ## The text of a value -/

namespace Json

open Nesting

variable {layout : Layout} (blank : layout.Blank)
include blank

theorem Layout.Blank.walk_line (depth level deepest : Nat) :
    walk ⟨level, deepest, .outside⟩ (layout.line depth).toList = ⟨level, deepest, .outside⟩ :=
  walk_plain level deepest fun char member => .of_isSpace (blank.line depth char member)

theorem Layout.Blank.walk_colon (level deepest : Nat) :
    walk ⟨level, deepest, .outside⟩ layout.colon.toList = ⟨level, deepest, .outside⟩ := by
  obtain ⟨space, colon, spaces⟩ := blank.colon
  rw [colon]
  refine walk_plain level deepest (List.forall_mem_cons.mpr ⟨by simp [IsPlain, marks], ?_⟩)
  exact fun char member => .of_isSpace (spaces char member)

/-- The text between the brackets of an array or an object, at the level inside of them, brings the
    walk from one bracket to the other. -/
theorem walk_bracketed {first last : Char} {inside : List Char} {nested : Nat}
    (opening : first = '[' ∨ first = '\x7b') (closing : last = ']' ∨ last = '\x7d')
    (depth level deepest : Nat)
    (h : ∀ deepest, level + 1 ≤ deepest → walk ⟨level + 1, deepest, .outside⟩ inside =
      ⟨level + 1, max deepest (level + 1 + nested), .outside⟩) :
    walk ⟨level, deepest, .outside⟩ (first :: (inside ++ (layout.line depth).toList ++ [last])) =
      ⟨level, max deepest (level + (nested + 1)), .outside⟩ := by
  rw [walk_cons, step_open level deepest opening, walk_append, walk_append,
    h _ (Nat.le_max_right _ _), blank.walk_line, walk_cons, step_close level _ closing, walk_nil]
  congr 1
  omega

mutual

/-- The walk through the text of a value ends at the level where it began, and has been as much
    deeper as the value is deep. -/
theorem walk_render : (json : Json) → ∀ (depth level deepest : Nat), level ≤ deepest →
    walk ⟨level, deepest, .outside⟩ (json.render layout depth).toList =
      ⟨level, max deepest (level + json.depth), .outside⟩
  | null => by
    intro depth level deepest reached
    simp [render, Json.depth, reached, step]
  | bool value => by
    intro depth level deepest reached
    cases value <;> simp [render, Json.depth, reached, step]
  | number value => by
    intro depth level deepest reached
    have flat := walk_plain level deepest (isPlain_of_mem_render value)
    simp [render, Json.depth, reached, flat]
  | string value => by
    intro depth level deepest reached
    simp [render, Json.depth, reached, walk_quote level deepest value]
  | array [] => by
    intro depth level deepest _
    simp [render, Json.depth, depthOfItems, step]
  | array (item :: items) => by
    intro depth level deepest _
    rw [render, Json.depth]
    simp only [String.toList_append]
    apply walk_bracketed blank (.inl rfl) (.inl rfl) depth level deepest
    exact walk_renderItems (item :: items) (depth + 1) (level + 1)
  | object [] => by
    intro depth level deepest _
    simp [render, Json.depth, depthOfMembers, step]
  | object (member :: members) => by
    intro depth level deepest _
    rw [render, Json.depth]
    simp only [String.toList_append]
    apply walk_bracketed blank (.inr rfl) (.inr rfl) depth level deepest
    exact walk_renderMembers (member :: members) (depth + 1) (level + 1)

theorem walk_renderItems : (items : List Json) → ∀ (depth level deepest : Nat), level ≤ deepest →
    walk ⟨level, deepest, .outside⟩ (renderItems layout depth items).toList =
      ⟨level, max deepest (level + depthOfItems items), .outside⟩
  | [] => by
    intro depth level deepest reached
    rw [depthOfItems, Nat.add_zero, Nat.max_eq_left reached]
    rfl
  | [item] => by
    intro depth level deepest reached
    rw [renderItems, String.toList_append, walk_append, blank.walk_line,
      walk_render item depth level deepest reached, depthOfItems, depthOfItems, Nat.max_zero]
  | item :: next :: items => by
    intro depth level deepest reached
    rw [renderItems, depthOfItems]
    · simp only [String.toList_append, walk_append, blank.walk_line]
      rw [walk_render item depth level deepest reached,
        walk_comma,
        walk_renderItems (next :: items) depth level _ (by omega)]
      congr 1
      omega
    · simp

theorem walk_renderMembers : (members : List (String × Json)) → ∀ (depth level deepest : Nat),
    level ≤ deepest →
    walk ⟨level, deepest, .outside⟩ (renderMembers layout depth members).toList =
      ⟨level, max deepest (level + depthOfMembers members), .outside⟩
  | [] => by
    intro depth level deepest reached
    rw [depthOfMembers, Nat.add_zero, Nat.max_eq_left reached]
    rfl
  | [(key, value)] => by
    intro depth level deepest reached
    rw [renderMembers]
    simp only [String.toList_append, walk_append, blank.walk_line, walk_quote, blank.walk_colon]
    rw [walk_render value depth level deepest reached, depthOfMembers, depthOfMembers,
      Nat.max_zero]
  | (key, value) :: next :: members => by
    intro depth level deepest reached
    rw [renderMembers, depthOfMembers]
    · simp only [String.toList_append, walk_append, blank.walk_line, walk_quote, blank.walk_colon]
      rw [walk_render value depth level deepest reached,
        walk_comma,
        walk_renderMembers (next :: members) depth level _ (by omega)]
      congr 1
      omega
    · simp

end

/-- The nesting of the text of a value is the depth of the value. -/
theorem nesting_render (json : Json) :
    Nesting.ofText (json.render layout 0) = json.depth := by
  rw [Nesting.ofText, walk_render blank json 0 0 0 (Nat.le_refl 0)]
  simp

end Json

/-! ## Small whole numbers -/

/-- A whole number whose tenfold is below `2 ^ 54` is reread as itself. -/
theorem Binary64.reread_of_small {x : Binary64} (whole : x.isIntegral = true)
    (small : x.units ≤ 900719925474099 * unitsInOne) : x.reread = some x := by
  have value : x.units = x.units / unitsInOne * unitsInOne :=
    (Nat.div_mul_cancel (Nat.dvd_of_mod_eq_zero (of_decide_eq_true whole))).symm
  have most : x.units / unitsInOne ≤ 900719925474099 :=
    Nat.div_le_of_le_mul (by rw [Nat.mul_comm]; exact small)
  rw [reread_eq_rescaled whole]
  exact rescaled_of_lt_two_pow_54 value (by omega) (by omega)

namespace Program

theorem nesting_toJsonText (program : Program) :
    Nesting.ofText program.toJsonText = program.toJson.depth :=
  Json.nesting_render Json.Layout.pretty_blank program.toJson

/-- A program whose numbers are whole and at most `900719925474099`, of either sign, is restored
    from its JSON text, and written as the same text again, if arrays and objects are nested at most
    127 levels deep in the text; its text is not one of JSON to the reader if they are nested
    deeper. -/
theorem ofJsonText_toJsonText_by_nesting {program : Program}
    (small : ∀ x ∈ program.numbers,
      x.isIntegral = true ∧ x.units ≤ 900719925474099 * Binary64.unitsInOne) :
    (Nesting.ofText program.toJsonText ≤ 127 → ∃ restored,
      ofJsonText program.toJsonText = .ok restored ∧ restored = program ∧
        restored.toJsonText = program.toJsonText) ∧
    (127 < Nesting.ofText program.toJsonText →
      ofJsonText program.toJsonText = .error (.fault .malformed)) := by
  have kept : program.reread = some program := by
    rw [reread_eq_self_iff]
    intro x member
    exact Binary64.reread_of_small (small x member).1 (small x member).2
  rw [nesting_toJsonText, ofJsonText_toJsonText, kept]
  constructor
  · intro shallow
    exact ⟨program, by simp [Json.orError, shallow], rfl, rfl⟩
  · intro deep
    simp [Json.orError, Nat.not_le.mpr deep]

/-- The least of the numbers behind a string of brackets and a quote is restored, and a sum of 125
    names is refused. -/
theorem ofJsonText_toJsonText_by_nesting_declaring :
    (∃ x : Binary64, x.negative = true ∧ x.units = 900719925474099 * Binary64.unitsInOne ∧
      ofJsonText (declaring (.binary .add (.string "[[\"\x7b") (.number x))).toJsonText =
        .ok (declaring (.binary .add (.string "[[\"\x7b") (.number x)))) ∧
    ofJsonText (declaring (.multiple "a" 124)).toJsonText = .error (.fault .malformed) := by
  obtain ⟨x, -, -, units⟩ := Binary64.exists_ofNat?_of_lt (by decide : 900719925474099 < 2 ^ 53)
  have negated : (x.withSign true).units = 900719925474099 * Binary64.unitsInOne := units
  have whole : (x.withSign true).isIntegral = true := by
    rw [Binary64.isIntegral, negated, Nat.mul_mod_left]
    rfl
  refine ⟨⟨x.withSign true, rfl, negated, ?_⟩, ?_⟩
  · have restored := (@ofJsonText_toJsonText_by_nesting
      (declaring (.binary .add (.string "[[\"\x7b") (.number (x.withSign true)))) ?_).1 ?_
    · obtain ⟨_, read, rfl, -⟩ := restored
      exact read
    · rw [numbers_declaring]
      simp only [Expression.numbers, List.nil_append, List.forall_mem_singleton]
      exact ⟨whole, Nat.le_of_eq negated⟩
    · rw [nesting_toJsonText, depth_declaring]
      simp [Expression.toJson, Json.depth, Json.depthOfMembers]
  · apply (ofJsonText_toJsonText_by_nesting _).2
    · rw [nesting_toJsonText, depth_declaring, Expression.depth_multiple]
      decide
    · rw [numbers_declaring, Expression.numbers_multiple]
      simp

end Program

end TinyScript
