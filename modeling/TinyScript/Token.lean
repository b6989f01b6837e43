import TinyScript.Text.Position

/-!
# Tokens

A token is a stretch of source text with its kind and the place where it starts. A string token
keeps its quotes.
-/

namespace TinyScript

/-- The kinds of tokens. -/
inductive TokenKind where
  | number
  | string
  | identifier
  | varKeyword
  | functionKeyword
  | returnKeyword
  | typeKeyword
  | assign
  | operator
  | lParen
  | rParen
  | lBrace
  | rBrace
  | lBracket
  | rBracket
  | semicolon
  | colon
  | comma
  deriving DecidableEq, Repr

namespace TokenKind

/-- The kind's name in messages. -/
def label : TokenKind → String
  | number => "number"
  | string => "string"
  | identifier => "identifier"
  | varKeyword => "variable declaration keyword"
  | functionKeyword => "'function'"
  | returnKeyword => "'return'"
  | typeKeyword => "type keyword"
  | assign => "'='"
  | operator => "operator"
  | lParen => "'('"
  | rParen => "')'"
  | lBrace => "'\x7b'"
  | rBrace => "'\x7d'"
  | lBracket => "'['"
  | rBracket => "']'"
  | semicolon => "';'"
  | colon => "':'"
  | comma => "','"

/-- The kind of a reserved word. -/
def keyword? : String → Option TokenKind
  | "let" => some varKeyword
  | "const" => some varKeyword
  | "function" => some functionKeyword
  | "return" => some returnKeyword
  | "string" => some typeKeyword
  | "number" => some typeKeyword
  | _ => none

/-- The kind of a whole word: a keyword or an identifier. -/
def ofWord (word : String) : TokenKind :=
  (keyword? word).getD identifier

/-- The kind of a mark of punctuation. -/
def punctuation? : Char → Option TokenKind
  | '(' => some lParen
  | ')' => some rParen
  | '\x7b' => some lBrace
  | '\x7d' => some rBrace
  | '[' => some lBracket
  | ']' => some rBracket
  | ';' => some semicolon
  | ':' => some colon
  | ',' => some comma
  | _ => none

/-- The characters that are operators. -/
def operatorChars : List Char := ['+', '-', '*', '/', '<', '>']

/-- The kind of a token that is one character. -/
def symbol? (char : Char) : Option TokenKind :=
  if operatorChars.contains char then some operator
  else if char = '=' then some assign
  else punctuation? char

/-- Whether tokens of this kind differ in their text, so that a message quotes it. -/
def varies : TokenKind → Bool
  | number | string | identifier | varKeyword | typeKeyword | operator => true
  | _ => false

end TokenKind

/-- A token of the source text. -/
structure Token where
  kind : TokenKind
  text : String
  start : Position
  deriving DecidableEq, Repr

namespace Token

/-- The token's description in messages. -/
def describe (token : Token) : String :=
  if token.kind.varies then token.kind.label ++ " '" ++ token.text ++ "'"
  else token.kind.label

/-- The text between the quotes of a string token. -/
def unquoted (token : Token) : String :=
  String.ofList token.text.toList.tail.dropLast

end Token

end TinyScript
