import TinyScript.Token

/-!
# Errors and their reports

Each stage has its own type of causes: characters that form no token, tokens that the grammar does
not allow, statements that C++ cannot hold at their place. A report is what the user sees of a
cause: its kind, its wording, and where it stands.
-/

namespace TinyScript

/-- The stage that refused a program. -/
inductive ReportKind where
  | lexical
  | grammatical
  | unsupported
  deriving DecidableEq, Repr

/-- The name of a kind of error. -/
def ReportKind.label : ReportKind → String
  | lexical => "LexicalError"
  | grammatical => "SyntaxError"
  | unsupported => "UnsupportedConstructError"

/-- An error as it is shown. -/
structure Report where
  kind : ReportKind
  message : String
  position : Position
  deriving DecidableEq, Repr

namespace Report

/-- The report of a construct without a counterpart in C++. A tree keeps no positions, so this one
    is all zeros. -/
def unsupported (message : String) : Report :=
  ⟨.unsupported, message, ⟨0, 0, 0⟩⟩

/-- The report as one line, with its place where it has one. -/
def display (report : Report) : String :=
  let text := report.kind.label ++ ": " ++ report.message
  match report.kind with
  | .unsupported => text
  | _ =>
    "[" ++ toString report.position.line ++ ":" ++ toString report.position.column ++ "] " ++ text

end Report

/-- Why no token starts at a place. -/
inductive LexicalError where
  | strayCharacter (char : Char) (position : Position)
  | openString (quote : Char) (position : Position)
  deriving DecidableEq, Repr

/-- How an error in the characters is shown. -/
def LexicalError.report : LexicalError → Report
  | strayCharacter char position =>
    ⟨.lexical, "unexpected character '" ++ char.toString ++ "' at offset " ++
      toString position.offset, position⟩
  | openString quote position =>
    ⟨.lexical, "unterminated string literal starting with " ++ quote.toString ++ " at offset " ++
      toString position.offset, position⟩

/-- What the grammar allows at the place of an error. -/
inductive Expected where
  | statement
  | operand
  | bodyEnd (owner : String)
  | token (kind : TokenKind)
  deriving DecidableEq, Repr

namespace Expected

/-- What went wrong, in general words. -/
def context : Expected → String
  | statement => "statement form not recognized"
  | operand => "invalid expression"
  | bodyEnd owner => "unterminated body of function '" ++ owner ++ "'"
  | token _ => "unexpected token"

/-- What would have been right. -/
def label : Expected → String
  | statement => "a statement"
  | operand => "a literal or identifier"
  | bodyEnd _ => TokenKind.rBrace.label
  | token kind => kind.label

end Expected

/-- Why a row of tokens is no program. Nothing is found at the end of the input. -/
inductive GrammarError where
  | unexpected (expected : Expected) (found : Option Token) (position : Position)
  | numberTooLarge (text : String) (position : Position)
  deriving DecidableEq, Repr

/-- How an error in the tokens is shown. -/
def GrammarError.report : GrammarError → Report
  | unexpected expected found position =>
    let got := (found.map Token.describe).getD "end of input"
    ⟨.grammatical, expected.context ++ ": expected " ++ expected.label ++ ", got " ++ got, position⟩
  | numberTooLarge text position =>
    ⟨.grammatical, "numeric literal out of range: " ++ text, position⟩

/-- Why a text is no program. -/
inductive ParseError where
  | lexical (error : LexicalError)
  | grammatical (error : GrammarError)
  deriving DecidableEq, Repr

/-- How an error in a text is shown: as the stage that found it shows it. -/
def ParseError.report : ParseError → Report
  | lexical error => error.report
  | grammatical error => error.report

/-- Why a program has no counterpart in C++. -/
inductive EmitError where
  | topLevelReturn
  | nestedFunction (inner outer : String)
  deriving DecidableEq, Repr

/-- How a construct without a counterpart in C++ is shown. -/
def EmitError.report : EmitError → Report
  | topLevelReturn => .unsupported "ReturnStatement outside of a function body"
  | nestedFunction inner outer =>
    .unsupported ("FunctionDeclaration '" ++ inner ++ "' nested inside function '" ++ outer ++ "'")

/-- Why a text cannot be compiled. -/
inductive CompileError where
  | parse (error : ParseError)
  | emit (error : EmitError)
  deriving DecidableEq, Repr

/-- How an error of a compilation is shown: as the stage that found it shows it. -/
def CompileError.report : CompileError → Report
  | parse error => error.report
  | emit error => error.report

end TinyScript
