import Mathlib
import TinyScript.Proofs.JsonFields

/-!
# Outlines of values

Outlines that are read as values. Every value has one outline that is read as it, and what is read
from an outline is what is read from its value. Only the tag of a record is judged earlier: it is a
text there, and never a number.
-/

namespace TinyScript

/-! ## The outline of a value -/

namespace Outline

mutual

/-- The outline that is read as the given value. -/
def ofJson : Json → Outline
  | .null => null
  | .bool value => bool value
  | .number value => number (.ok value)
  | .string value => string (.ok value)
  | .array items => array (ofJsonItems items) none
  | .object members => object (ofJsonMembers members) none

/-- The outlines that are read as the given items. -/
def ofJsonItems : List Json → List Outline
  | [] => []
  | item :: items => ofJson item :: ofJsonItems items

/-- The outlines that are read as the given members. -/
def ofJsonMembers : List (String × Json) → List (Except JsonFault String × Outline)
  | [] => []
  | (key, value) :: members => (.ok key, ofJson value) :: ofJsonMembers members

end

theorem ofJsonItems_eq_map (items : List Json) : ofJsonItems items = items.map ofJson := by
  induction items with
  | nil => rw [ofJsonItems, List.map_nil]
  | cons item items ih => rw [ofJsonItems, ih, List.map_cons]

theorem ofJsonMembers_eq_map (members : List (String × Json)) :
    ofJsonMembers members = members.map fun member => (.ok member.1, ofJson member.2) := by
  induction members with
  | nil => rw [ofJsonMembers, List.map_nil]
  | cons member members ih => rw [ofJsonMembers, ih, List.map_cons]

theorem checkEnding_eq_ok_iff {ending : Option JsonFault} {found : Unit} :
    checkEnding ending = .ok found ↔ ending = none := by
  cases ending <;> simp [checkEnding]

mutual

/-- An outline is read as a value if it is the outline of the value and not nested too deeply. -/
theorem read_eq_ok_iff : (outline : Outline) → (levels : Nat) → (json : Json) →
    (outline.read levels = .ok json ↔ outline = ofJson json ∧ json.depth ≤ levels)
  | null, levels, json => by cases json <;> simp [read, ofJson, Json.depth]
  | bool value, levels, json => by cases json <;> simp [read, ofJson, Json.depth]
  | number value, levels, json => by
    cases value <;> cases json <;> simp [read, ofJson, Json.depth, Except.map]
  | string value, levels, json => by
    cases value <;> cases json <;> simp [read, ofJson, Json.depth, Except.map]
  | array items ending, levels, json => by
    rw [read]
    by_cases full : levels = 0
    · cases json <;> simp [full, ofJson, Json.depth]
    · simp only [if_neg full, bind_eq_ok_iff, readItems_eq_ok_iff items, checkEnding_eq_ok_iff]
      cases json <;> simp [ofJson, Json.depth, pure, Except.pure]
      grind
  | object members ending, levels, json => by
    rw [read]
    by_cases full : levels = 0
    · cases json <;> simp [full, ofJson, Json.depth]
    · simp only [if_neg full, bind_eq_ok_iff, readMembers_eq_ok_iff members, checkEnding_eq_ok_iff]
      cases json <;> simp [ofJson, Json.depth, pure, Except.pure]
      grind
  | cut skimming reading, levels, json => by cases json <;> simp [read, ofJson]

theorem readItems_eq_ok_iff : (outlines : List Outline) → (levels : Nat) → (items : List Json) →
    (readItems levels outlines = .ok items ↔
      outlines = ofJsonItems items ∧ Json.depthOfItems items ≤ levels)
  | [], levels, items => by
    cases items <;> simp [readItems, ofJsonItems, Json.depthOfItems]
  | outline :: outlines, levels, items => by
    simp only [readItems, bind_eq_ok_iff, read_eq_ok_iff outline, readItems_eq_ok_iff outlines]
    cases items <;> simp [ofJsonItems, Json.depthOfItems, pure, Except.pure]
    grind

theorem readMembers_eq_ok_iff : (outlines : List (Except JsonFault String × Outline)) →
    (levels : Nat) → (members : List (String × Json)) →
    (readMembers levels outlines = .ok members ↔
      outlines = ofJsonMembers members ∧ Json.depthOfMembers members ≤ levels)
  | [], levels, members => by
    cases members <;> simp [readMembers, ofJsonMembers, Json.depthOfMembers]
  | (key, outline) :: outlines, levels, members => by
    simp only [readMembers, bind_eq_ok_iff, read_eq_ok_iff outline, readMembers_eq_ok_iff outlines]
    cases members <;> simp [ofJsonMembers, Json.depthOfMembers, pure, Except.pure]
    grind

end

mutual

theorem skim_ofJson : (json : Json) → (ofJson json).skim = none
  | .null | .bool _ | .number _ | .string _ => by rw [ofJson, skim] <;> simp
  | .array items => by rw [ofJson, skim, skimItems_ofJsonItems items]; rfl
  | .object members => by rw [ofJson, skim, skimMembers_ofJsonMembers members]; rfl

theorem skimItems_ofJsonItems : (items : List Json) → skimItems (ofJsonItems items) = none
  | [] => by rw [ofJsonItems, skimItems]
  | item :: items => by
    rw [ofJsonItems, skimItems, skim_ofJson item, skimItems_ofJsonItems items]
    rfl

theorem skimMembers_ofJsonMembers : (members : List (String × Json)) →
    skimMembers (ofJsonMembers members) = none
  | [] => by rw [ofJsonMembers, skimMembers]
  | (key, value) :: members => by
    rw [ofJsonMembers, skimMembers, skim_ofJson value, skimMembers_ofJsonMembers members]
    rfl

end

end Outline

/-! ## Records in outlines -/

theorem mapError_eq_ok_iff {α ε ε' : Type} {attempt : Except ε α} {change : ε → ε'} {value : α} :
    attempt.mapError change = .ok value ↔ attempt = .ok value := by
  cases attempt <;> simp [Except.mapError]

/-- The tag of a record is a text, not a number. -/
def Json.TagIsText : Json → Prop
  | .array items => ∀ tag ∈ items.head?, ∃ name, tag = .string name
  | .object members => ∀ member ∈ members, member.1 = "type" → ∃ name, member.2 = .string name
  | _ => True

theorem Variants.ofOutline_eq_ok_iff {κ : Type} {variants : Variants κ} {outline : Outline}
    {kind : κ} :
    variants.ofOutline outline = .ok kind ↔
      ∃ name, outline = .ofJson (.string name) ∧ variants.ofJson (.string name) = .ok kind := by
  cases outline with
  | string text => cases text <;> simp [ofOutline, ofJson, Outline.ofJson, mapError_eq_ok_iff]
  | _ => simp [ofOutline, Outline.ofJson]

theorem Outline.cons_eq_ofJsonMembers_iff {member : Except JsonFault String × Outline}
    {outlines : List (Except JsonFault String × Outline)} {members : List (String × Json)} :
    member :: outlines = ofJsonMembers members ↔ ∃ key json rest,
      member = (.ok key, ofJson json) ∧ outlines = ofJsonMembers rest ∧
        members = (key, json) :: rest := by
  cases members with
  | nil => simp [ofJsonMembers]
  | cons first members =>
    obtain ⟨key, json⟩ := first
    rw [ofJsonMembers]
    grind

/-- The tag is read from its outline as from its value, if it is a text. -/
theorem Variants.splitOutline_eq_ok_iff {κ : Type} {variants : Variants κ} {levels : Nat}
    {kind kind' : Option κ} {outlines : List (Except JsonFault String × Outline)}
    {rest : List (String × Json)} :
    variants.splitOutline levels kind outlines = .ok (kind', rest) ↔
      ∃ members, outlines = Outline.ofJsonMembers members ∧ (Json.object members).TagIsText ∧
        Json.depthOfMembers members ≤ levels ∧ variants.split kind members = .ok (kind', rest) := by
  induction outlines generalizing kind kind' rest with
  | nil =>
    constructor
    · intro found
      refine ⟨[], by rw [Outline.ofJsonMembers], by simp [Json.TagIsText], ?_, ?_⟩
      · simp [Json.depthOfMembers]
      · simpa [split, splitOutline] using found
    · rintro ⟨members, written, -, -, found⟩
      cases members with
      | nil => simpa [split, splitOutline] using found
      | cons member members => simp [Outline.ofJsonMembers] at written
  | cons member outlines ih =>
    obtain ⟨key, outline⟩ := member
    rw [splitOutline]
    constructor
    · intro h
      obtain ⟨name, readKey, found⟩ := bind_eq_ok_iff.mp h
      obtain rfl := mapError_eq_ok_iff.mp readKey
      clear h readKey
      by_cases tag : name = "type"
      · subst tag
        cases kind with
        | some => simp at found
        | none =>
          simp only [if_true, Option.isSome_none, Bool.false_eq_true, if_false, bind_eq_ok_iff,
            ofOutline_eq_ok_iff, ih] at found
          obtain ⟨kind, ⟨name, rfl, named⟩, members, rfl, text, fits, found⟩ := found
          refine ⟨("type", .string name) :: members, by rw [Outline.ofJsonMembers],
            List.forall_mem_cons.mpr ⟨fun _ => ⟨name, rfl⟩, text⟩, ?_, ?_⟩
          · simpa [Json.depthOfMembers, Json.depth] using fits
          · rw [split, if_pos rfl, once, named]
            exact found
      · simp only [if_neg tag, bind_eq_ok_iff, mapError_eq_ok_iff, Outline.read_eq_ok_iff,
          Prod.exists, ih] at found
        obtain ⟨json, ⟨rfl, shallow⟩, given, others, ⟨members, rfl, text, fits, found⟩, ⟨⟩⟩ := found
        refine ⟨(name, json) :: members, by rw [Outline.ofJsonMembers],
          List.forall_mem_cons.mpr ⟨fun same => absurd same tag, text⟩, ?_, ?_⟩
        · rw [Json.depthOfMembers]
          exact Nat.max_le.mpr ⟨shallow, fits⟩
        · rw [split, if_neg tag, found]
          rfl
    · rintro ⟨members, written, texts, fits, h⟩
      obtain ⟨name, json, others, same, rfl, rfl⟩ := Outline.cons_eq_ofJsonMembers_iff.mp written
      cases same
      obtain ⟨first, text⟩ := List.forall_mem_cons.mp texts
      rw [Json.depthOfMembers, Nat.max_le] at fits
      rw [split] at h
      refine bind_eq_ok_iff.mpr ⟨name, rfl, ?_⟩
      by_cases tag : name = "type"
      · rw [if_pos tag] at h ⊢
        obtain ⟨given, taken, found⟩ := bind_eq_ok_iff.mp h
        obtain ⟨rfl, kind, named, rfl⟩ := once_eq_ok_iff.mp taken
        obtain ⟨text', rfl⟩ := first tag
        refine bind_eq_ok_iff.mpr ⟨kind, ofOutline_eq_ok_iff.mpr ⟨text', rfl, named⟩, ?_⟩
        exact ih.mpr ⟨others, rfl, text, fits.2, found⟩
      · rw [if_neg tag] at h ⊢
        obtain ⟨⟨given, rest'⟩, found, ⟨⟩⟩ := bind_eq_ok_iff.mp h
        have value := (Outline.read_eq_ok_iff (.ofJson json) levels json).mpr ⟨rfl, fits.1⟩
        exact bind_eq_ok_iff.mpr ⟨json, mapError_eq_ok_iff.mpr value, bind_eq_ok_iff.mpr
          ⟨_, ih.mpr ⟨others, rfl, text, fits.2, found⟩, rfl⟩⟩

/-- A record is read from its outline as from its value, if its tag is a text. -/
theorem Outline.variant_eq_ok_iff {κ : Type} {variants : Variants κ} {record : String}
    {levels : Nat} {outline : Outline} {kind : κ} {fields : Fields} :
    outline.variant variants record levels = .ok (kind, fields) ↔
      ∃ json, outline = ofJson json ∧ json.TagIsText ∧ json.depth ≤ levels + 1 ∧
        json.variant variants record = .ok (kind, fields) := by
  constructor
  · intro h
    cases outline with
    | object outlines ending =>
      obtain ⟨⟨given, rest⟩, taken, h⟩ := bind_eq_ok_iff.mp h
      obtain ⟨⟨⟩, ended, h⟩ := bind_eq_ok_iff.mp h
      obtain ⟨kind, tagged, ⟨⟩⟩ := bind_eq_ok_iff.mp h
      obtain ⟨members, rfl, text, fits, found⟩ := Variants.splitOutline_eq_ok_iff.mp taken
      obtain rfl := checkEnding_eq_ok_iff.mp (mapError_eq_ok_iff.mp ended)
      refine ⟨.object members, by rw [ofJson], text, ?_, ?_⟩
      · rw [Json.depth]
        omega
      · exact bind_eq_ok_iff.mpr
          ⟨_, found, bind_eq_ok_iff.mpr ⟨kind, mapError_eq_ok_iff.mp tagged, rfl⟩⟩
    | array outlines ending =>
      cases outlines with
      | nil =>
        obtain ⟨_, -, ⟨⟩⟩ := bind_eq_ok_iff.mp h
      | cons tag outlines =>
        obtain ⟨kind, tagged, h⟩ := bind_eq_ok_iff.mp h
        obtain ⟨items, read, h⟩ := bind_eq_ok_iff.mp h
        obtain ⟨⟨⟩, ended, ⟨⟩⟩ := bind_eq_ok_iff.mp h
        obtain ⟨name, rfl, named⟩ := Variants.ofOutline_eq_ok_iff.mp tagged
        obtain ⟨rfl, fits⟩ := (readItems_eq_ok_iff _ _ _).mp (mapError_eq_ok_iff.mp read)
        obtain rfl := checkEnding_eq_ok_iff.mp (mapError_eq_ok_iff.mp ended)
        refine ⟨.array (.string name :: items), by simp only [ofJson, ofJsonItems], ?_, ?_, ?_⟩
        · rintro tag ⟨⟩
          exact ⟨name, rfl⟩
        · simpa [Json.depth, Json.depthOfItems] using fits
        · exact bind_eq_ok_iff.mpr ⟨kind, named, rfl⟩
    | _ => cases h
  · rintro ⟨json, rfl, text, fits, h⟩
    cases json with
    | object members =>
      obtain ⟨⟨given, rest⟩, taken, h⟩ := bind_eq_ok_iff.mp h
      obtain ⟨kind, tagged, ⟨⟩⟩ := bind_eq_ok_iff.mp h
      rw [Json.depth] at fits
      have split := Variants.splitOutline_eq_ok_iff.mpr
        ⟨members, rfl, text, show _ ≤ levels by omega, taken⟩
      rw [ofJson]
      exact bind_eq_ok_iff.mpr ⟨_, split, bind_eq_ok_iff.mpr
        ⟨(), rfl, bind_eq_ok_iff.mpr ⟨kind, mapError_eq_ok_iff.mpr tagged, rfl⟩⟩⟩
    | array items =>
      cases items with
      | nil => cases h
      | cons tag items =>
        obtain ⟨kind, named, ⟨⟩⟩ := bind_eq_ok_iff.mp h
        obtain ⟨name, rfl⟩ := text tag rfl
        rw [Json.depth, Json.depthOfItems] at fits
        rw [ofJson, ofJsonItems]
        refine bind_eq_ok_iff.mpr ⟨kind, Variants.ofOutline_eq_ok_iff.mpr ⟨name, rfl, named⟩, ?_⟩
        refine bind_eq_ok_iff.mpr ⟨items, mapError_eq_ok_iff.mpr ?_, rfl⟩
        exact (readItems_eq_ok_iff _ _ _).mpr ⟨rfl, by omega⟩
    | _ => cases h

/-- A statement from a value, with no bound for the statements inside. -/
def Statement.ofNode (json : Json) : Except Mismatch Statement := do
  let (kind, fields) ← json.variant StatementKind.variants recordText
  ofFields (listOfJson ofJson) fields kind

theorem Statement.ofOutline_eq_ok_iff {levels : Nat} {outline : Outline} {statement : Statement} :
    ofOutline (levels + 1) outline = .ok statement ↔
      ∃ json, outline = .ofJson json ∧ json.TagIsText ∧ json.depth ≤ levels + 1 ∧
        ofNode json = .ok statement := by
  simp only [ofOutline, ofNode, bind_eq_ok_iff, mapError_eq_ok_iff, Prod.exists,
    Outline.variant_eq_ok_iff, Nat.add_sub_cancel]
  grind

end TinyScript
