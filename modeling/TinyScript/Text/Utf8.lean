/-!
# Texts of bytes

Bytes are read as UTF-8. Where they are no text, each longest stretch that starts like a character
is read as one replacement character, and so is each byte that starts none.
-/

namespace TinyScript

/-- A character that has started: how many bytes are still to come, between which values the next
    one has to lie, and the bits so far. -/
structure Started where
  missing : Nat
  low : Nat
  high : Nat
  bits : Nat

/-- The character that stands for bytes that are no text. -/
def replacementChar : Char := '\ufffd'

/-- The character that starts with a byte, if it has more than one. The next byte is limited so that
    there is no shorter form, no surrogate and nothing beyond the last code point. -/
def Started.ofByte? (byte : Nat) : Option Started :=
  if 0xC2 ≤ byte && byte ≤ 0xDF then some ⟨1, 0x80, 0xBF, byte - 0xC0⟩
  else if byte = 0xE0 then some ⟨2, 0xA0, 0xBF, 0⟩
  else if byte = 0xED then some ⟨2, 0x80, 0x9F, 0xD⟩
  else if 0xE1 ≤ byte && byte ≤ 0xEF then some ⟨2, 0x80, 0xBF, byte - 0xE0⟩
  else if byte = 0xF0 then some ⟨3, 0x90, 0xBF, 0⟩
  else if 0xF1 ≤ byte && byte ≤ 0xF3 then some ⟨3, 0x80, 0xBF, byte - 0xF0⟩
  else if byte = 0xF4 then some ⟨3, 0x80, 0x8F, 4⟩
  else none

/-- What a byte gives between characters: a character of its own, or the start of one. -/
def firstByte (byte : Nat) : List Char × Option Started :=
  if byte < 0x80 then ([Char.ofNat byte], none)
  else
    match Started.ofByte? byte with
    | some started => ([], some started)
    | none => ([replacementChar], none)

/-- What a byte gives behind the start of a character. -/
def Started.nextByte (started : Started) (byte : Nat) : List Char × Option Started :=
  if started.low ≤ byte && byte ≤ started.high then
    let bits := started.bits * 64 + (byte - 0x80)
    if started.missing ≤ 1 then ([Char.ofNat bits], none)
    else ([], some ⟨started.missing - 1, 0x80, 0xBF, bits⟩)
  else
    let (chars, next) := firstByte byte
    (replacementChar :: chars, next)

/-- The characters of bytes, behind the start of one if there is one. -/
def lossyChars : Option Started → List UInt8 → List Char
  | none, [] => []
  | some _, [] => [replacementChar]
  | started, byte :: rest =>
    let (chars, started) := started.elim (firstByte byte.toNat) (·.nextByte byte.toNat)
    chars ++ lossyChars started rest

/-- The text of bytes, with replacement characters for what is no text. -/
def lossyText (bytes : ByteArray) : String :=
  String.ofList (lossyChars none bytes.toList)

end TinyScript
