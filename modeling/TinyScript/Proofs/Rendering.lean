import Mathlib
import TinyScript.Cpp.Emit
import TinyScript.Program.Printer

/-!
# The two texts of an expression

Source text is written piece by piece behind what is written already, C++ text is put together
from the texts of the operands, and each decides for itself where parentheses stand. Both come to
the same form: two texts of one expression differ in its string literals only.
-/

namespace TinyScript

/-! ## The common form -/

/-- A text, in parentheses if asked for. -/
def grouped (group : Bool) (text : String) : String :=
  if group then "(" ++ text ++ ")" else text

/-- The text of an expression, given the form of a string literal. Parentheses stand around a left
    operand that binds weaker than the operator, and around a right operand that binds no
    stronger. -/
def Expression.render (literal : String → String) : Expression → String
  | .binary operator left right =>
    grouped (left.precedence < operator.precedence) (left.render literal) ++
      " " ++ operator.symbol ++ " " ++
      grouped (right.precedence ≤ operator.precedence) (right.render literal)
  | .identifier name => name
  | .number value => value.numeral .plain
  | .string value => literal value

theorem needsGroup_left (precedence parent : Nat) :
    (decide (precedence < parent) || (false && precedence == parent)) =
      decide (precedence < parent) := by
  rw [Bool.false_and, Bool.or_false]

theorem needsGroup_right (precedence parent : Nat) :
    (decide (precedence < parent) || (true && precedence == parent)) =
      decide (precedence ≤ parent) := by
  rw [Bool.true_and, Bool.eq_iff_iff]
  simp [Nat.le_iff_lt_or_eq]

theorem writeOperand_append {write : String → String} {text : String}
    (writes : ∀ written, write written = written ++ text) (precedence parent : Nat) (isRight : Bool)
    (written : String) :
    writeOperand write precedence parent isRight written =
      written ++ grouped (precedence < parent || (isRight && precedence == parent)) text := by
  unfold writeOperand grouped
  split
  · simp only [writes, String.append_assoc]
  · exact writes written

theorem Expression.write_eq_append (expression : Expression) (written : String) :
    expression.write written = written ++ expression.render quoteLiteral := by
  induction expression generalizing written with
  | binary operator left right ihLeft ihRight =>
    simp only [write, writeOperand_append ihLeft, writeOperand_append ihRight, needsGroup_left,
      needsGroup_right, render, String.append_assoc]
  | identifier name => rfl
  | number value => rfl
  | string value => rfl

/-- Source text has the common form. -/
theorem Expression.print_eq_render (expression : Expression) :
    expression.print = expression.render quoteLiteral := by
  rw [print, write_eq_append, String.empty_append]

/-- C++ text has the common form. -/
theorem Cpp.expression_eq_render (expression : Expression) :
    Cpp.expression expression = expression.render Cpp.literal := by
  induction expression with
  | binary operator left right ihLeft ihRight =>
    simp only [Cpp.expression, Cpp.operandText, ihLeft, ihRight, needsGroup_left, needsGroup_right,
      Expression.render, grouped]
  | identifier name => rfl
  | number value => rfl
  | string value => rfl

/-! ## Texts around values -/

/-- Texts with values between them, each in the given form. -/
def weave (form : String → String) : List String → List String → String
  | text :: texts, value :: values => text ++ form value ++ weave form texts values
  | text :: _, [] => text
  | [], _ => ""

theorem weave_congr {form form' : String → String} {values : List String} (texts : List String)
    (same : ∀ value ∈ values, form value = form' value) :
    weave form texts values = weave form' texts values := by
  induction values generalizing texts with
  | nil => cases texts <;> rfl
  | cons value values ih =>
    obtain ⟨first, others⟩ := List.forall_mem_cons.mp same
    cases texts with
    | nil => rfl
    | cons text texts => rw [weave, weave, first, ih texts others]

/-- A text that depends on a form is a fixed row of texts with values in that form between them. -/
def Weaves (text : (String → String) → String) (values : List String) : Prop :=
  ∃ texts, texts.length = values.length + 1 ∧ ∀ form, text form = weave form texts values

theorem weaves_text (text : String) : Weaves (fun _ => text) [] :=
  ⟨[text], rfl, fun _ => rfl⟩

theorem weaves_value (value : String) : Weaves (fun form => form value) [value] :=
  ⟨["", ""], rfl, fun form => by simp [weave]⟩

/-- The last text of the first row and the first text of the second row become one. -/
theorem Weaves.append {text text' : (String → String) → String} {values values' : List String}
    (h : Weaves text values) (h' : Weaves text' values') :
    Weaves (fun form => text form ++ text' form) (values ++ values') := by
  obtain ⟨texts, length, woven⟩ := h
  obtain ⟨texts', length', woven'⟩ := h'
  simp only [woven, woven']
  clear woven woven'
  induction values generalizing texts with
  | nil =>
    obtain ⟨last, rfl⟩ := List.length_eq_one_iff.mp length
    obtain ⟨first, more, rfl⟩ := List.exists_cons_of_length_eq_add_one length'
    refine ⟨(last ++ first) :: more, length', ?_⟩
    intro form
    cases values' <;> simp [weave, String.append_assoc]
  | cons value values ih =>
    obtain ⟨first, texts, rfl⟩ := List.exists_cons_of_length_eq_add_one length
    obtain ⟨joined, count, woven⟩ := ih texts (Nat.succ.inj length)
    refine ⟨first :: joined, congrArg Nat.succ count, ?_⟩
    intro form
    simp only [weave, List.cons_append, String.append_assoc, woven]

theorem Weaves.grouped {text : (String → String) → String} {values : List String}
    (h : Weaves text values) (group : Bool) :
    Weaves (fun form => TinyScript.grouped group (text form)) values := by
  cases group with
  | false => exact h
  | true =>
    have closed := ((weaves_text "(").append h).append (weaves_text ")")
    rwa [List.nil_append, List.append_nil] at closed

/-! ## String literals of expressions -/

/-- The values of the string literals in an expression, from left to right. -/
def Expression.strings : Expression → List String
  | .binary _ left right => left.strings ++ right.strings
  | .identifier _ | .number _ => []
  | .string value => [value]

/-- What a text of an expression has around its string literals depends on the rest of the
    expression alone. -/
theorem Expression.weaves_render (expression : Expression) :
    Weaves expression.render expression.strings := by
  induction expression with
  | binary operator left right ihLeft ihRight =>
    have joined := (ihLeft.grouped (left.precedence < operator.precedence)).append
      (weaves_text (" " ++ operator.symbol ++ " "))
    have whole := joined.append (ihRight.grouped (right.precedence ≤ operator.precedence))
    rw [List.append_nil] at whole
    simpa only [render, strings, String.append_assoc] using whole
  | identifier name => exact weaves_text name
  | number value => exact weaves_text (value.numeral .plain)
  | string value => exact weaves_value value

/-- The characters that have an escape in C++ text. -/
def Cpp.escapedChars : List Char := ['"', '\\', '\n', '\r', '\t']

theorem Cpp.escapeChar_of_notMem {char : Char} (h : char ∉ escapedChars) :
    escapeChar char = [char] := by
  unfold escapeChar
  split
  case h_6 => rfl
  all_goals exact absurd (by decide) h

/-- A value without such characters has the same literal in both texts. -/
theorem Cpp.literal_eq_quoteLiteral {value : String}
    (plain : ∀ char ∈ value.toList, char ∉ escapedChars) :
    Cpp.literal value = quoteLiteral value := by
  have kept : value.toList.flatMap escapeChar = value.toList := by
    rw [List.flatMap_congr fun char member => escapeChar_of_notMem (plain char member)]
    exact List.flatMap_singleton' _
  have single : '"' ∉ value.toList := fun member => plain '"' member (by decide)
  rw [Cpp.literal, Cpp.escape, kept, String.ofList_toList, quoteLiteral]
  simp [single]

/-- The C++ text and the source text of an expression are equal if no string literal in it needs an
    escape. In any case both are the same row of texts with the literals between them, each literal
    as it is written on its own. -/
theorem Cpp.expression_agrees_with_print (expression : Expression) :
    ((∀ value ∈ expression.strings, ∀ char ∈ value.toList, char ∉ escapedChars) →
      Cpp.expression expression = expression.print) ∧
    ∃ texts, texts.length = expression.strings.length + 1 ∧
      Cpp.expression expression =
        weave (fun value => Cpp.expression (.string value)) texts expression.strings ∧
      expression.print =
        weave (fun value => (Expression.string value).print) texts expression.strings := by
  obtain ⟨texts, length, woven⟩ := expression.weaves_render
  simp only [Cpp.expression_eq_render, Expression.print_eq_render]
  refine ⟨?_, texts, length, woven Cpp.literal, woven quoteLiteral⟩
  intro plain
  refine ((woven Cpp.literal).trans ?_).trans (woven quoteLiteral).symm
  exact weave_congr texts fun value member => literal_eq_quoteLiteral (plain value member)

/-- A single quote needs no escape; a double one does, and changes nothing around its literal. -/
theorem Cpp.expression_agrees_with_print_quotes :
    Cpp.expression
        (.binary .mul (.binary .sub (.string "it's") (.identifier "a")) (.identifier "b")) =
      "(\"it's\" - a) * b" ∧
    (Expression.binary .mul (.binary .sub (.string "it's") (.identifier "a"))
        (.identifier "b")).print =
      "(\"it's\" - a) * b" ∧
    ∃ first last, Cpp.expression (.binary .sub (.identifier "a")
        (.binary .sub (.string "\"") (.identifier "b"))) = first ++ "\"\\\"\"" ++ last ∧
      (Expression.binary .sub (.identifier "a")
        (.binary .sub (.string "\"") (.identifier "b"))).print = first ++ "'\"'" ++ last := by
  have written : (Expression.binary .mul (.binary .sub (.string "it's") (.identifier "a"))
      (.identifier "b")).print = "(\"it's\" - a) * b" := by cbv
  refine ⟨?_, written, ?_⟩
  · rw [← written]
    apply (expression_agrees_with_print _).1
    simp [Expression.strings, escapedChars]
  · obtain ⟨texts, length, woven, woven'⟩ := (expression_agrees_with_print (.binary .sub
      (.identifier "a") (.binary .sub (.string "\"") (.identifier "b")))).2
    obtain ⟨first, last, rfl⟩ := List.length_eq_two.mp length
    exact ⟨first, last, woven, woven'⟩

end TinyScript
