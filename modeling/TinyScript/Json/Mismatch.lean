import TinyScript.Json.Outline
import TinyScript.Text.Visible

/-!
# Values of the wrong shape

What can be wrong with a JSON value that has to have a certain shape, and how it is put into words.
-/

namespace TinyScript

/-- What stands in the place of something else. -/
inductive Found where
  | null
  | bool (value : Bool)
  | number (value : JsonNumber)
  | string (value : String)
  | sequence
  | map
  deriving DecidableEq, Repr

namespace Found

/-- What was found, in words. -/
def describe : Found → String
  | null => "null"
  | bool value => "boolean `" ++ toString value ++ "`"
  | number (.real value) => "floating point `" ++ (JsonNumber.real value).render ++ "`"
  | number value => "integer `" ++ value.render ++ "`"
  | string value => "string " ++ visibleQuote value
  | sequence => "sequence"
  | map => "map"

/-- What a value is found to be. -/
def ofJson : Json → Found
  | .null => null
  | .bool value => bool value
  | .number value => number value
  | .string value => string value
  | .array _ => sequence
  | .object _ => map

end Found

/-- Why a value does not have the shape it has to have. -/
inductive Mismatch where
  | missingField (field : String)
  | duplicateField (field : String)
  | unknownVariant (name : String) (variants : List String)
  | invalidType (found : Found) (expected : String)
  | invalidValue (found : Found) (expected : String)
  | invalidLength (length : Nat) (expected : String)
  deriving DecidableEq, Repr

/-- A name in the quotes that messages put around names. -/
def codeQuote (name : String) : String :=
  "`" ++ name ++ "`"

/-- The mismatch in words. -/
def Mismatch.message : Mismatch → String
  | missingField field => "missing field " ++ codeQuote field
  | duplicateField field => "duplicate field " ++ codeQuote field
  | unknownVariant name variants =>
    "unknown variant " ++ codeQuote name ++ ", expected one of " ++
      String.intercalate ", " (variants.map codeQuote)
  | invalidType found expected =>
    "invalid type: " ++ found.describe ++ ", expected " ++ expected
  | invalidValue found expected =>
    "invalid value: " ++ found.describe ++ ", expected " ++ expected
  | invalidLength length expected =>
    "invalid length " ++ toString length ++ ", expected " ++ expected

/-- Why a text does not hold a value of a certain shape. -/
inductive JsonError where
  | fault (fault : JsonFault)
  | mismatch (mismatch : Mismatch)
  deriving DecidableEq, Repr

/-- The error of an outline that is not what was expected: its own fault, if it has one. -/
def Outline.mismatch (expected : String) : Outline → JsonError
  | .null => found .null
  | .bool value => found (.bool value)
  | .number (.ok value) => found (.number value)
  | .number (.error fault) => .fault fault
  | .string (.ok value) => found (.string value)
  | .string (.error fault) => .fault fault
  | .array .. => found .sequence
  | .object .. => found .map
  | .cut _ reading => .fault reading
where
  found (found : Found) : JsonError := .mismatch (.invalidType found expected)

end TinyScript
