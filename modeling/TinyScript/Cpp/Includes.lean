/-!
# Include blocks

The headers that a C++ text needs, each once and in the order of first use.
-/

namespace TinyScript.Cpp

/-- Headers in the order of first use. -/
structure Includes where
  headers : List String := []
  deriving DecidableEq, Repr

namespace Includes

/-- Asks for a header. -/
def require (includes : Includes) (header : String) : Includes :=
  if includes.headers.contains header then includes else ⟨includes.headers ++ [header]⟩

/-- Whether no header is asked for. -/
def isEmpty (includes : Includes) : Bool :=
  includes.headers.isEmpty

/-- One line a header and an empty line behind them, or nothing. -/
def render (includes : Includes) : String :=
  if includes.isEmpty then ""
  else String.join (includes.headers.map fun header => "#include <" ++ header ++ ">\n") ++ "\n"

end Includes

/-- The C++ type for a type of the source language. -/
def typeName : String → String
  | "string" => "std::string"
  | _ => "int"

/-- The header that the C++ type for a type of the source language needs. -/
def typeHeader? : String → Option String
  | "string" => some "string"
  | _ => none

/-- Asks for the header that a type of the source language needs. -/
def Includes.requireType (includes : Includes) (sourceType : String) : Includes :=
  (typeHeader? sourceType).elim includes includes.require

end TinyScript.Cpp
