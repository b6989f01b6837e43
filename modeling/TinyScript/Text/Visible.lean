import TinyScript.Text.Unseen

/-!
# Texts made visible

A text in quotes in which every character can be seen: some characters have a short escape, the
others that cannot be seen are written by their code points.
-/

namespace TinyScript

/-- A character by its code point, in hexadecimal digits between braces. -/
def codePointEscape (char : Char) : List Char :=
  ['\\', 'u', '\x7b'] ++ Nat.toDigits 16 char.toNat ++ ['\x7d']

/-- A character as it stands in a visible text. -/
def visibleChar (char : Char) : List Char :=
  match char with
  | '"' => ['\\', '"']
  | '\\' => ['\\', '\\']
  | '\t' => ['\\', 't']
  | '\n' => ['\\', 'n']
  | '\r' => ['\\', 'r']
  | '\x00' => ['\\', '0']
  | char => if isUnseen char then codePointEscape char else [char]

/-- A text in quotes with what cannot be seen escaped. -/
def visibleQuote (value : String) : String :=
  "\"" ++ String.ofList (value.toList.flatMap visibleChar) ++ "\""

end TinyScript
