import TinyScript.Json.Quoted

/-!
# Outlines of JSON text

The outline of a text is its JSON value as far as the text can be read. Where it goes wrong, the
outline holds the fault in the place of what should stand there, so that what comes first in the
text can be judged first. Numbers out of range and strings with half a surrogate pair are faults
too, but only for a reader who needs their value: one who skims over them does not notice.
-/

namespace TinyScript

/-- A JSON value as far as its text can be read. An array and an object say how they end: with a
    fault where neither a comma nor the closing bracket follows. -/
inductive Outline where
  | null
  | bool (value : Bool)
  | number (value : Except JsonFault JsonNumber)
  | string (value : Except JsonFault String)
  | array (items : List Outline) (ending : Option JsonFault)
  | object (members : List (Except JsonFault String × Outline)) (ending : Option JsonFault)
  /-- Nothing that could be read, with the fault for a skimming reader and for any other. -/
  | cut (skimming reading : JsonFault)

namespace Outline

/-- A part of an outline and the text behind it; there is none behind a fault. -/
structure Reading (α : Type) where
  part : α
  rest : Option (List Char)

/-- Whether a character is white space of JSON. -/
def isSpace (char : Char) : Bool :=
  char = ' ' || char = '\t' || char = '\n' || char = '\r'

/-- The text behind the white space at its front. -/
def skipSpace (text : List Char) : List Char :=
  text.dropWhile isSpace

/-- The fault of a text that does not go on as it has to. -/
def faultAt (text : List Char) : JsonFault :=
  if text.isEmpty then .truncated else .malformed

/-- A fault that every reader meets. -/
def fault (fault : JsonFault) : Reading Outline :=
  ⟨.cut fault fault, none⟩

/-- One of the words of JSON, behind its first letter. -/
def word (value : Outline) : List Char → List Char → Reading Outline
  | [], rest => ⟨value, some rest⟩
  | _ :: _, [] => fault .truncated
  | expected :: letters, char :: rest =>
    if char = expected then word value letters rest else fault .malformed

/-- A number. Its end cut off is a matter of form for a skimming reader. -/
def numeralFrom (text : List Char) : Reading Outline :=
  match JsonNumeral.scan text with
  | .ok (numeral, rest) => ⟨.number (numeral.value?.elim (.error .malformed) .ok), some rest⟩
  | .error fault => ⟨.cut .malformed fault, none⟩

/-- A string, behind its opening quote: its decoded text, and the text behind it or the fault that a
    skimming reader meets. -/
def quoted (text : List Char) : Except JsonFault String × Except JsonFault (List Char) :=
  ((JsonString.read text).map fun (decoded, _) => String.ofList decoded, JsonString.skim text)

/-- A string, behind its opening quote. -/
def stringFrom (text : List Char) : Reading Outline :=
  match quoted text with
  | (value, .ok rest) => ⟨.string value, some rest⟩
  | (.error reading, .error skimming) => ⟨.cut skimming reading, none⟩
  | (.ok _, .error skimming) => fault skimming

/-- The items of an array from one of them on, up to and with the closing bracket. -/
def itemsFrom (value : List Char → Reading Outline) :
    Nat → List Char → Reading (List Outline × Option JsonFault)
  | 0, _ => ⟨([], some .malformed), none⟩
  | rounds + 1, text =>
    match value text with
    | ⟨item, none⟩ => ⟨([item], none), none⟩
    | ⟨item, some rest⟩ =>
      match skipSpace rest with
      | ',' :: rest =>
        let more := itemsFrom value rounds rest
        ⟨(item :: more.part.1, more.part.2), more.rest⟩
      | ']' :: rest => ⟨([item], none), some rest⟩
      | rest => ⟨([item], some (faultAt rest)), none⟩

/-- An array, behind its opening bracket. -/
def arrayFrom (bound : Nat) (value : List Char → Reading Outline) (text : List Char) :
    Reading Outline :=
  match skipSpace text with
  | [] => ⟨.array [] (some .truncated), none⟩
  | ']' :: rest => ⟨.array [] none, some rest⟩
  | rest =>
    let items := itemsFrom value bound rest
    ⟨.array items.part.1 items.part.2, items.rest⟩

/-- The value of a member, from the colon on. -/
def memberValue (value : List Char → Reading Outline) (text : List Char) : Reading Outline :=
  match skipSpace text with
  | ':' :: rest => value rest
  | rest => fault (faultAt rest)

/-- A member of an object, from its key on. -/
def member (value : List Char → Reading Outline) (text : List Char) :
    Reading (Except JsonFault String × Outline) :=
  match skipSpace text with
  | '"' :: rest =>
    match quoted rest with
    | (key, .ok rest) =>
      let reading := memberValue value rest
      ⟨(key, reading.part), reading.rest⟩
    | (key, .error skimming) => ⟨(key, .cut skimming skimming), none⟩
  | rest => ⟨(.error (faultAt rest), .cut (faultAt rest) (faultAt rest)), none⟩

/-- The members of an object from one of them on, up to and with the closing brace. -/
def membersFrom (value : List Char → Reading Outline) :
    Nat → List Char → Reading (List (Except JsonFault String × Outline) × Option JsonFault)
  | 0, _ => ⟨([], some .malformed), none⟩
  | rounds + 1, text =>
    match member value text with
    | ⟨first, none⟩ => ⟨([first], none), none⟩
    | ⟨first, some rest⟩ =>
      match skipSpace rest with
      | ',' :: rest =>
        let more := membersFrom value rounds rest
        ⟨(first :: more.part.1, more.part.2), more.rest⟩
      | '\x7d' :: rest => ⟨([first], none), some rest⟩
      | rest => ⟨([first], some (faultAt rest)), none⟩

/-- An object, behind its opening brace. -/
def objectFrom (bound : Nat) (value : List Char → Reading Outline) (text : List Char) :
    Reading Outline :=
  match skipSpace text with
  | [] => ⟨.object [] (some .truncated), none⟩
  | '\x7d' :: rest => ⟨.object [] none, some rest⟩
  | rest =>
    let members := membersFrom value bound rest
    ⟨.object members.part.1 members.part.2, members.rest⟩

/-- The value at the front of a text. The bound has to exceed the length of the text: every level
    and every round takes at least one character. -/
def value : Nat → List Char → Reading Outline
  | 0, _ => fault .malformed
  | bound + 1, text =>
    match skipSpace text with
    | [] => fault .truncated
    | 'n' :: rest => word .null ['u', 'l', 'l'] rest
    | 't' :: rest => word (.bool true) ['r', 'u', 'e'] rest
    | 'f' :: rest => word (.bool false) ['a', 'l', 's', 'e'] rest
    | '"' :: rest => stringFrom rest
    | '[' :: rest => arrayFrom bound (value bound) rest
    | '\x7b' :: rest => objectFrom bound (value bound) rest
    | char :: rest =>
      if char = '-' || char.isDigit then numeralFrom (char :: rest) else fault .malformed

/-- The outline of a text, and whether more than white space follows the value. -/
def ofText (text : String) : Outline × Bool :=
  let chars := text.toList
  let reading := value (chars.length + 1) chars
  (reading.part, reading.rest.any fun rest => !(skipSpace rest).isEmpty)

mutual

/-- The first fault that a skimming reader meets. -/
def skim : Outline → Option JsonFault
  | array items ending => (skimItems items).or ending
  | object members ending => (skimMembers members).or ending
  | cut skimming _ => some skimming
  | _ => none

/-- The first fault that a skimming reader meets in some items. -/
def skimItems : List Outline → Option JsonFault
  | [] => none
  | item :: items => (skim item).or (skimItems items)

/-- The first fault that a skimming reader meets in some members. -/
def skimMembers : List (Except JsonFault String × Outline) → Option JsonFault
  | [] => none
  | (_, value) :: members => (skim value).or (skimMembers members)

end

/-- Fails with the fault at the end of an array or an object. -/
def checkEnding (ending : Option JsonFault) : Except JsonFault Unit :=
  ending.elim (.ok ()) .error

mutual

/-- The value of an outline in which arrays and objects are nested no deeper than allowed. -/
def read (levels : Nat) : Outline → Except JsonFault Json
  | null => .ok .null
  | bool value => .ok (.bool value)
  | number value => value.map .number
  | string value => value.map .string
  | array items ending => do
    if levels = 0 then .error .malformed
    else
      let items ← readItems (levels - 1) items
      checkEnding ending
      return .array items
  | object members ending => do
    if levels = 0 then .error .malformed
    else
      let members ← readMembers (levels - 1) members
      checkEnding ending
      return .object members
  | cut _ reading => .error reading

/-- The values of some items. -/
def readItems (levels : Nat) : List Outline → Except JsonFault (List Json)
  | [] => .ok []
  | item :: items => return (← read levels item) :: (← readItems levels items)

/-- The values of some members. -/
def readMembers (levels : Nat) :
    List (Except JsonFault String × Outline) → Except JsonFault (List (String × Json))
  | [] => .ok []
  | (key, value) :: members => do
    let key ← key
    let value ← read levels value
    return (key, value) :: (← readMembers levels members)

end

/-- How deep arrays and objects may be nested in a text. -/
def nestingLimit : Nat := 127

end Outline

end TinyScript
