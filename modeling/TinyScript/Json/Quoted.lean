import TinyScript.Json.Numeral
import TinyScript.Text.Hex

/-!
# Reading JSON strings

A string is read in two ways. Reading decodes its escapes and refuses halves of surrogate pairs;
skimming only looks for its end and checks each escape by itself. Both start behind the opening
quote.
-/

namespace TinyScript.JsonString

/-- Why fewer than four characters are no four hexadecimal digits: the text is cut short if it has
    fewer than four bytes. -/
def shortFault (text : List Char) : JsonFault :=
  if (String.ofList text).utf8ByteSize < 4 then .truncated else .malformed

/-- The character that an escape of one letter denotes. -/
def escaped? : Char → Option Char
  | '"' => some '"'
  | '\\' => some '\\'
  | '/' => some '/'
  | 'b' => some '\x08'
  | 'f' => some '\x0c'
  | 'n' => some '\n'
  | 'r' => some '\r'
  | 't' => some '\t'
  | _ => none

/-- Whether a UTF-16 unit is the first half of a surrogate pair. -/
def isHighSurrogate (unit : Nat) : Bool :=
  0xD800 ≤ unit && unit ≤ 0xDBFF

/-- Whether a UTF-16 unit is the second half of a surrogate pair. -/
def isLowSurrogate (unit : Nat) : Bool :=
  0xDC00 ≤ unit && unit ≤ 0xDFFF

/-- The character of a surrogate pair. -/
def ofSurrogates (high low : Nat) : Char :=
  Char.ofNat (0x10000 + 0x400 * (high - 0xD800) + (low - 0xDC00))

/-- The text behind the closing quote of a string. -/
def skim : List Char → Except JsonFault (List Char)
  | [] => .error .truncated
  | '"' :: rest => .ok rest
  | ['\\'] => .error .truncated
  | '\\' :: 'u' :: a :: b :: c :: d :: rest =>
    match hexValue? [a, b, c, d] with
    | some _ => skim rest
    | none => .error .malformed
  | '\\' :: 'u' :: rest => .error (shortFault rest)
  | '\\' :: char :: rest =>
    match escaped? char with
    | some _ => skim rest
    | none => .error .malformed
  | char :: rest => if char.toNat < 0x20 then .error .malformed else skim rest

/-- A character in front of a decoded text. -/
def push (char : Char) :
    Except JsonFault (List Char × List Char) → Except JsonFault (List Char × List Char) :=
  Except.map fun (decoded, rest) => (char :: decoded, rest)

/-- The decoded text of a string and the text behind its closing quote. -/
def read : List Char → Except JsonFault (List Char × List Char)
  | [] => .error .truncated
  | '"' :: rest => .ok ([], rest)
  | ['\\'] => .error .truncated
  | '\\' :: 'u' :: a :: b :: c :: d :: rest =>
    match hexValue? [a, b, c, d] with
    | none => .error .malformed
    | some unit =>
      if isLowSurrogate unit then .error .malformed
      else if isHighSurrogate unit then
        match rest with
        | '\\' :: 'u' :: a :: b :: c :: d :: rest =>
          match hexValue? [a, b, c, d] with
          | none => .error .malformed
          | some low =>
            if isLowSurrogate low then push (ofSurrogates unit low) (read rest)
            else .error .malformed
        | '\\' :: 'u' :: rest => .error (shortFault rest)
        | ['\\'] => .error .truncated
        | [] => .error .truncated
        | _ => .error .malformed
      else push (Char.ofNat unit) (read rest)
  | '\\' :: 'u' :: rest => .error (shortFault rest)
  | '\\' :: char :: rest =>
    match escaped? char with
    | some decoded => push decoded (read rest)
    | none => .error .malformed
  | char :: rest => if char.toNat < 0x20 then .error .malformed else push char (read rest)

end TinyScript.JsonString
