import TinyScript.Json.Mismatch

/-!
# Records in JSON

A record is written as an object, or as an array of its fields in their order. A record that is one
of several variants carries the name of its variant: in the member `type` of an object, or as the
first item of an array. Members that are no fields are passed over.
-/

namespace TinyScript

/-- The fields of a record as they are written. -/
inductive Fields where
  | members (members : List (String × Json))
  | items (items : List Json)

/-- The mismatch of a value that is not what was expected. -/
def Json.mismatch {α : Type} (json : Json) (expected : String) : Except Mismatch α :=
  .error (.invalidType (.ofJson json) expected)

/-- The text of a value that has to be a string. -/
def Json.asString : Json → Except Mismatch String
  | .string value => .ok value
  | json => json.mismatch "a string"

/-- The items of a value that has to be an array. -/
def Json.asArray : Json → Except Mismatch (List Json)
  | .array items => .ok items
  | json => json.mismatch "a sequence"

/-- A field that is given at most once. -/
def once {α : Type} (field : String) (given : Option α) (value : Except Mismatch α) :
    Except Mismatch (Option α) :=
  if given.isSome then .error (.duplicateField field) else value.map some

/-- A field that has to be given. -/
def required {α : Type} (field : String) (given : Option α) : Except Mismatch α :=
  given.elim (.error (.missingField field)) .ok

/-- A number of elements in words. -/
def elementsText (count : Nat) : String :=
  if count = 1 then "1 element" else toString count ++ " elements"

/-- The items of an array that are still to be read as fields. -/
structure ItemState where
  taken : Nat
  rest : List Json

/-- A reader of fields from the items of an array, which knows the record in words. -/
abbrev ItemReader := ReaderT String (StateT ItemState (Except Mismatch))

/-- The next item, read as a field. -/
def ItemReader.next {α : Type} (field : Json → Except Mismatch α) : ItemReader α :=
  fun record state =>
    match state.rest with
    | [] => .error (.invalidLength state.taken record)
    | item :: rest => do return (← field item, ⟨state.taken + 1, rest⟩)

/-- The record whose fields are all the items of an array. -/
def ItemReader.run {α : Type} (reader : ItemReader α) (record : String) (count : Nat)
    (items : List Json) : Except Mismatch α := do
  let (value, state) ← reader (record ++ " with " ++ elementsText count) ⟨0, items⟩
  if state.rest.isEmpty then return value
  else .error (.invalidLength items.length (elementsText state.taken ++ " in sequence"))

/-- The fields of a record without variants. -/
def Json.fields (record : String) : Json → Except Mismatch Fields
  | .object members => .ok (.members members)
  | .array items => .ok (.items items)
  | json => json.mismatch record

/-! ## Variants -/

/-- The variants of a record by their names. -/
abbrev Variants (κ : Type) := List (String × κ)

/-- The variant with a given name. -/
def Variants.named {κ : Type} (variants : Variants κ) (name : String) : Except Mismatch κ :=
  (variants.lookup name).elim (.error (.unknownVariant name (variants.map Prod.fst))) .ok

/-- What stands for a variant's name, in words. -/
def variantText : String := "variant identifier"

/-- The variant that a value names. A natural number names a variant by its place. -/
def Variants.ofJson {κ : Type} (variants : Variants κ) : Json → Except Mismatch κ
  | .string name => variants.named name
  | .number (.natural index) =>
    match variants[index]? with
    | some (_, kind) => .ok kind
    | none =>
      .error (.invalidValue (.number (.natural index))
        ("variant index 0 <= i < " ++ toString variants.length))
  | json => json.mismatch variantText

/-- The variant of some members, if one is named, and the other members. -/
def Variants.split {κ : Type} (variants : Variants κ) :
    Option κ → List (String × Json) → Except Mismatch (Option κ × List (String × Json))
  | kind, [] => .ok (kind, [])
  | kind, (key, value) :: members => do
    if key = "type" then
      let kind ← once "type" kind (variants.ofJson value)
      variants.split kind members
    else
      let (kind, rest) ← variants.split kind members
      return (kind, (key, value) :: rest)

/-- The variant and the fields of a record. -/
def Json.variant {κ : Type} (variants : Variants κ) (record : String) :
    Json → Except Mismatch (κ × Fields)
  | .object members => do
    let (kind, rest) ← variants.split none members
    return (← required "type" kind, .members rest)
  | .array [] => .error (.missingField "type")
  | .array (tag :: items) => do return (← variants.ofJson tag, .items items)
  | json => json.mismatch record

/-! ## Variants in outlines

Where a record is read from its text, its variant is judged as soon as it is reached, and before
what follows it in the text. -/

/-- The variant that an outline names. -/
def Variants.ofOutline {κ : Type} (variants : Variants κ) : Outline → Except JsonError κ
  | .string (.ok name) => (variants.named name).mapError .mismatch
  | outline => .error (outline.mismatch variantText)

/-- The variant of some members, if one is named, and the values of the other members. -/
def Variants.splitOutline {κ : Type} (variants : Variants κ) (levels : Nat) :
    Option κ → List (Except JsonFault String × Outline) →
      Except JsonError (Option κ × List (String × Json))
  | kind, [] => .ok (kind, [])
  | kind, (key, value) :: members => do
    let key ← key.mapError .fault
    if key = "type" then
      if kind.isSome then .error (.mismatch (.duplicateField "type"))
      else variants.splitOutline levels (some (← variants.ofOutline value)) members
    else
      let value ← (value.read levels).mapError .fault
      let (kind, rest) ← variants.splitOutline levels kind members
      return (kind, (key, value) :: rest)

/-- The variant and the fields of a record that may hold arrays and objects down to a number of
    levels. -/
def Outline.variant {κ : Type} (variants : Variants κ) (record : String) (levels : Nat) :
    Outline → Except JsonError (κ × Fields)
  | .object members ending => do
    let (kind, rest) ← variants.splitOutline levels none members
    (checkEnding ending).mapError .fault
    return (← (required "type" kind).mapError .mismatch, .members rest)
  | .array [] ending => do
    (checkEnding ending).mapError .fault
    .error (.mismatch (.missingField "type"))
  | .array (tag :: items) ending => do
    let kind ← variants.ofOutline tag
    let items ← (readItems levels items).mapError .fault
    (checkEnding ending).mapError .fault
    return (kind, .items items)
  | outline => .error (outline.mismatch record)

end TinyScript
