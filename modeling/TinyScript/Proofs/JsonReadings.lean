import Mathlib
import TinyScript.Proofs.JsonSpelling

/-!
# What is read of JSON text is spelled by it

A reading either ends in a fault that a skimming reader meets too, or it has passed white space
and a text of the outline that it found. So a text is read without a fault exactly if it spells
its outline.
-/

namespace TinyScript.Outline

/-- A reading of a text: behind white space it has found a text of its outline, or it ends in a
    fault that a skimming reader meets too. -/
def IsReadingOf (text : List Char) : Reading Outline → Prop
  | ⟨outline, some rest⟩ =>
    ∃ space core, text = space ++ (core ++ rest) ∧ Blank space ∧ Spells outline core
  | ⟨outline, none⟩ => outline.skim ≠ none

/-- A reading of a row up to its closing bracket, with at least one part. -/
def IsRowOf {α : Type} (closing : Char) (spells : List α → List Char → Prop)
    (skims : List α → Option JsonFault) (text : List Char) :
    Reading (List α × Option JsonFault) → Prop
  | ⟨(row, ending), some rest⟩ =>
    ending = none ∧ row ≠ [] ∧ ∃ inner, text = inner ++ closing :: rest ∧ spells row inner
  | ⟨(row, ending), none⟩ => (skims row).or ending ≠ none

theorem exists_skipSpace (text : List Char) :
    ∃ space, Blank space ∧ text = space ++ skipSpace text :=
  ⟨text.takeWhile isSpace, fun _ => List.mem_takeWhile_imp, List.takeWhile_append_dropWhile.symm⟩

theorem IsReadingOf.behind {text space : List Char} {reading : Reading Outline}
    (h : IsReadingOf text reading) (blank : Blank space) : IsReadingOf (space ++ text) reading := by
  obtain ⟨outline, rest⟩ := reading
  cases rest with
  | none => exact h
  | some rest =>
    obtain ⟨space', core, rfl, blank', spells⟩ := h
    refine ⟨space ++ space', core, by simp, ?_, spells⟩
    intro char member
    exact (List.mem_append.mp member).elim (blank char) (blank' char)

theorem isReadingOf_spelled {outline : Outline} (core rest : List Char)
    (h : Spells outline core) : IsReadingOf (core ++ rest) ⟨outline, some rest⟩ :=
  ⟨[], core, rfl, fun _ member => absurd member List.not_mem_nil, h⟩

theorem isReadingOf_cut (text : List Char) (skimming reading : JsonFault) :
    IsReadingOf text ⟨.cut skimming reading, none⟩ := by
  simp [IsReadingOf, skim]

theorem word_cases (outline : Outline) (letters text : List Char) :
    (∃ rest, text = letters ++ rest ∧ word outline letters text = ⟨outline, some rest⟩) ∨
      ∃ fault, word outline letters text = ⟨.cut fault fault, none⟩ := by
  induction letters generalizing text with
  | nil => exact .inl ⟨text, rfl, rfl⟩
  | cons letter letters ih =>
    cases text with
    | nil => exact .inr ⟨_, rfl⟩
    | cons char text =>
      rw [word]
      by_cases same : char = letter
      · subst same
        simpa using ih text
      · rw [if_neg same]
        exact .inr ⟨_, rfl⟩

theorem isReadingOf_word {outline : Outline} {first : Char} {letters : List Char}
    (h : Spells outline (first :: letters)) (text : List Char) :
    IsReadingOf (first :: text) (word outline letters text) := by
  rcases word_cases outline letters text with ⟨rest, rfl, read⟩ | ⟨fault, read⟩
  · rw [read]
    exact isReadingOf_spelled (first :: letters) rest h
  · rw [read]
    exact isReadingOf_cut _ _ _

theorem isReadingOf_string (text : List Char) : IsReadingOf ('"' :: text) (stringFrom text) := by
  unfold stringFrom
  split
  case h_1 decoded rest quotes =>
    obtain ⟨inner, rfl, decodes⟩ := quoted_split quotes
    refine isReadingOf_spelled ('"' :: inner) rest ?_
    rw [Spells]
    exact ⟨inner, rfl, by simpa using decodes []⟩
  case h_2 => exact isReadingOf_cut _ _ _
  case h_3 => exact isReadingOf_cut _ _ _

theorem isReadingOf_numeral {char : Char} (starts : char = '-' ∨ char.isDigit = true)
    (text : List Char) : IsReadingOf (char :: text) (numeralFrom (char :: text)) := by
  cases scanned : JsonNumeral.scan (char :: text) with
  | error fault =>
    rw [numeralFrom, scanned]
    exact isReadingOf_cut _ _ _
  | ok found =>
    obtain ⟨numeral, rest⟩ := found
    have read : numeralFrom (char :: text) =
        ⟨.number (numeral.value?.elim (.error .malformed) .ok), some rest⟩ := by
      rw [numeralFrom, scanned]
    obtain ⟨inner, split, reads⟩ := numeralFrom_split read
    rw [read, split]
    refine isReadingOf_spelled inner rest ?_
    have whole := reads [] rfl
    rw [List.append_nil] at whole
    rw [Spells]
    cases inner with
    | nil => cases whole
    | cons _ inner =>
      cases split
      exact ⟨⟨char, inner, rfl, starts⟩, whole⟩

/-! ### Rows -/

/-- A part in front of a row whose reading goes on behind a comma. -/
theorem IsRowOf.cons {α : Type} {closing : Char} {spells : List α → List Char → Prop}
    {skims : List α → Option JsonFault} {left rest : List Char} {part : α}
    {more : Reading (List α × Option JsonFault)} (h : IsRowOf closing spells skims rest more)
    (joins : ∀ row inner, row ≠ [] → spells row inner → spells (part :: row) (left ++ ',' :: inner))
    (keeps : ∀ row, skims row ≠ none → skims (part :: row) ≠ none) :
    IsRowOf closing spells skims (left ++ ',' :: rest)
      ⟨(part :: more.part.1, more.part.2), more.rest⟩ := by
  obtain ⟨⟨row, ending⟩, behind⟩ := more
  cases behind with
  | none =>
    have met : (skims row).or ending ≠ none := h
    have met' : (skims (part :: row)).or ending ≠ none := by
      rw [ne_eq, Option.or_eq_none_iff, not_and_or] at met ⊢
      exact met.imp_left (keeps row)
    exact met'
  | some behind =>
    obtain ⟨ended, nonempty, inner, rfl, spelled⟩ := h
    exact ⟨ended, List.cons_ne_nil _ _, left ++ ',' :: inner, by simp,
      joins row inner nonempty spelled⟩

theorem isRowOf_fault {α : Type} (closing : Char) (spells : List α → List Char → Prop)
    (skims : List α → Option JsonFault) (text : List Char) (row : List α) (fault : JsonFault) :
    IsRowOf closing spells skims text ⟨(row, some fault), none⟩ := by
  simp [IsRowOf]

/-- A value and the white space on both of its sides. -/
theorem IsReadingOf.padded {text rest : List Char} {outline : Outline}
    (h : IsReadingOf text ⟨outline, some rest⟩) :
    ∃ left, text = left ++ skipSpace rest ∧ Padded (Spells outline) left := by
  obtain ⟨space, core, rfl, blank, spells⟩ := h
  obtain ⟨space', blank', split⟩ := exists_skipSpace rest
  refine ⟨space ++ (core ++ space'), ?_, space, core, space', rfl, blank, blank', spells⟩
  rw [List.append_assoc, List.append_assoc, ← split]

/-- A reading of a member: it has found a key and a text of its value with a mark between them, or
    it ends in a fault that a skimming reader meets too. -/
def IsMemberOf (text : List Char) : Reading (Except JsonFault String × Outline) → Prop
  | ⟨(key, outline), some rest⟩ => ∃ left, text = left ++ skipSpace rest ∧
      Joined ':' (Padded (SpellsString key)) (Padded (Spells outline)) left
  | ⟨(_, outline), none⟩ => outline.skim ≠ none

theorem isMemberOf_cut (text : List Char) (key : Except JsonFault String)
    (skimming reading : JsonFault) : IsMemberOf text ⟨(key, .cut skimming reading), none⟩ := by
  simp [IsMemberOf, skim]

section Rows

variable {read : List Char → Reading Outline} (reads : ∀ text, IsReadingOf text (read text))
include reads

theorem isRowOf_itemsFrom (rounds : Nat) (text : List Char) :
    IsRowOf ']' SpellsItems skimItems text (itemsFrom read rounds text) := by
  induction rounds generalizing text with
  | zero => exact isRowOf_fault _ _ _ _ _ _
  | succ rounds ih =>
    have found := reads text
    rw [itemsFrom]
    cases reading : read text with
    | mk item behind =>
      rw [reading] at found
      cases behind with
      | none =>
        have met : item.skim ≠ none := found
        simpa [IsRowOf, skimItems] using met
      | some behind =>
        obtain ⟨left, split, padded⟩ := found.padded
        rw [split]
        simp only
        split
        case h_1 rest comma =>
          rw [comma]
          refine (ih rest).cons (fun row inner nonempty spelled => ?_) fun row met => ?_
          · obtain ⟨next, row, rfl⟩ := List.exists_cons_of_ne_nil nonempty
            exact spellsItems_cons.mpr ⟨left, inner, rfl, padded, spelled⟩
          · rw [skimItems, ne_eq, Option.or_eq_none_iff]
            exact fun both => met both.2
        case h_2 rest close =>
          rw [close]
          refine ⟨rfl, by simp, left, rfl, ?_⟩
          rw [SpellsItems]
          exact padded
        case h_3 => exact isRowOf_fault _ _ _ _ _ _

theorem isMemberOf_member (text : List Char) : IsMemberOf text (member read text) := by
  obtain ⟨before, blank, split⟩ := exists_skipSpace text
  unfold member
  split
  case h_2 => exact isMemberOf_cut _ _ _ _
  case h_1 rest starts =>
    split
    case h_2 => exact isMemberOf_cut _ _ _ _
    case h_1 key behind quotes =>
      obtain ⟨inner, rfl, decodes⟩ := quoted_split quotes
      obtain ⟨after, blank', split'⟩ := exists_skipSpace behind
      have name : Padded (SpellsString key) (before ++ ('"' :: inner ++ after)) :=
        ⟨before, '"' :: inner, after, rfl, blank, blank', inner, rfl, by simpa using decodes []⟩
      unfold memberValue
      split
      case h_2 => exact isMemberOf_cut _ _ _ _
      case h_1 right colon =>
        have found := reads right
        cases reading : read right with
        | mk outline closing =>
          rw [reading] at found
          cases closing with
          | none => exact found
          | some closing =>
            obtain ⟨left, rfl, padded⟩ := found.padded
            refine ⟨_ ++ ':' :: left, ?_, _, left, rfl, name, padded⟩
            rw [split, starts, split', colon]
            simp

theorem isRowOf_membersFrom (rounds : Nat) (text : List Char) :
    IsRowOf '\x7d' SpellsMembers skimMembers text (membersFrom read rounds text) := by
  induction rounds generalizing text with
  | zero => exact isRowOf_fault _ _ _ _ _ _
  | succ rounds ih =>
    have found := isMemberOf_member reads text
    rw [membersFrom]
    cases reading : member read text with
    | mk part behind =>
      obtain ⟨key, outline⟩ := part
      rw [reading] at found
      cases behind with
      | none =>
        have met : outline.skim ≠ none := found
        simpa [IsRowOf, skimMembers] using met
      | some behind =>
        obtain ⟨left, split, joined⟩ := found
        rw [split]
        simp only
        split
        case h_1 rest comma =>
          rw [comma]
          refine (ih rest).cons (fun row inner nonempty spelled => ?_) fun row met => ?_
          · obtain ⟨next, row, rfl⟩ := List.exists_cons_of_ne_nil nonempty
            exact spellsMembers_cons.mpr ⟨left, inner, rfl, joined, spelled⟩
          · rw [skimMembers, ne_eq, Option.or_eq_none_iff]
            exact fun both => met both.2
        case h_2 rest close =>
          rw [close]
          refine ⟨rfl, by simp, left, rfl, ?_⟩
          rw [SpellsMembers]
          exact joined
        case h_3 => exact isRowOf_fault _ _ _ _ _ _

end Rows

/-- An array of the items that have been read, or none. -/
theorem isReadingOf_array {bound : Nat} (reads : ∀ text, IsReadingOf text (value bound text))
    (text : List Char) : IsReadingOf ('[' :: text) (arrayFrom bound (value bound) text) := by
  obtain ⟨space, blank, split⟩ := exists_skipSpace text
  unfold arrayFrom
  split
  case h_1 => simp [IsReadingOf, skim]
  case h_2 rest close =>
    rw [split, close]
    have spelled : Spells (.array [] none) ('[' :: (space ++ [']'])) := by
      rw [Spells]
      exact ⟨rfl, space, rfl, by rwa [SpellsItems]⟩
    simpa using isReadingOf_spelled _ rest spelled
  case h_3 =>
    have found := isRowOf_itemsFrom reads bound text
    rw [itemsFrom_skipSpace]
    cases reading : itemsFrom (value bound) bound text with
    | mk part behind =>
      obtain ⟨items, ending⟩ := part
      rw [reading] at found
      cases behind with
      | none =>
        have met : (skimItems items).or ending ≠ none := found
        simpa [IsReadingOf, skim] using met
      | some behind =>
        obtain ⟨rfl, -, inner, rfl, row⟩ := found
        have spelled : Spells (.array items none) ('[' :: (inner ++ [']'])) := by
          rw [Spells]
          exact ⟨rfl, inner, rfl, row⟩
        simpa using isReadingOf_spelled _ behind spelled

theorem isReadingOf_object {bound : Nat} (reads : ∀ text, IsReadingOf text (value bound text))
    (text : List Char) : IsReadingOf ('\x7b' :: text) (objectFrom bound (value bound) text) := by
  obtain ⟨space, blank, split⟩ := exists_skipSpace text
  unfold objectFrom
  split
  case h_1 => simp [IsReadingOf, skim]
  case h_2 rest close =>
    rw [split, close]
    have spelled : Spells (.object [] none) ('\x7b' :: (space ++ ['\x7d'])) := by
      rw [Spells]
      exact ⟨rfl, space, rfl, by rwa [SpellsMembers]⟩
    simpa using isReadingOf_spelled _ rest spelled
  case h_3 =>
    have found := isRowOf_membersFrom reads bound text
    rw [membersFrom_skipSpace]
    cases reading : membersFrom (value bound) bound text with
    | mk part behind =>
      obtain ⟨members, ending⟩ := part
      rw [reading] at found
      cases behind with
      | none =>
        have met : (skimMembers members).or ending ≠ none := found
        simpa [IsReadingOf, skim] using met
      | some behind =>
        obtain ⟨rfl, -, inner, rfl, row⟩ := found
        have spelled : Spells (.object members none) ('\x7b' :: (inner ++ ['\x7d'])) := by
          rw [Spells]
          exact ⟨rfl, inner, rfl, row⟩
        simpa using isReadingOf_spelled _ behind spelled

theorem isReadingOf_value (bound : Nat) (text : List Char) :
    IsReadingOf text (value bound text) := by
  induction bound generalizing text with
  | zero => exact isReadingOf_cut _ _ _
  | succ bound ih =>
    obtain ⟨space, blank, split⟩ := exists_skipSpace text
    rw [split, value_append blank, value_skipSpace]
    refine IsReadingOf.behind ?_ blank
    unfold value
    split
    case h_1 => exact isReadingOf_cut _ _ _
    case h_2 rest starts => rw [starts]; exact isReadingOf_word (by rw [Spells]) rest
    case h_3 rest starts => rw [starts]; exact isReadingOf_word (by rw [Spells]) rest
    case h_4 rest starts => rw [starts]; exact isReadingOf_word (by rw [Spells]) rest
    case h_5 rest starts => rw [starts]; exact isReadingOf_string rest
    case h_6 rest starts => rw [starts]; exact isReadingOf_array ih rest
    case h_7 rest starts => rw [starts]; exact isReadingOf_object ih rest
    case h_8 char rest _ _ _ _ _ _ starts =>
      rw [starts]
      split
      case isTrue begins => exact isReadingOf_numeral (by simpa using begins) rest
      case isFalse => exact isReadingOf_cut _ _ _

/-! ## Whole texts -/

/-- A text that is an outline's, with white space around it. -/
def IsWrittenAs (outline : Outline) (text : String) : Prop :=
  Padded (Spells outline) text.toList

theorem ofText_of_isWrittenAs {outline : Outline} {text : String} (h : outline.IsWrittenAs text) :
    ofText text = (outline, false) := by
  obtain ⟨closing, read, closes⟩ := (isReadWithin outline (text.toList.length + 1)).padded h
    (Nat.lt_succ_self _) (show endsNumeral [] = true from rfl) rfl
  rw [List.append_nil] at read
  simp [ofText, read, closes]

theorem isWrittenAs_of_ofText {outline : Outline} {text : String}
    (h : ofText text = (outline, false)) (clean : outline.skim = none) :
    outline.IsWrittenAs text := by
  have found := isReadingOf_value (text.toList.length + 1) text.toList
  cases reading : value (text.toList.length + 1) text.toList with
  | mk part behind =>
    rw [reading] at found
    simp only [ofText, reading, Prod.mk.injEq] at h
    obtain ⟨rfl, trailing⟩ := h
    cases behind with
    | none => exact absurd clean found
    | some rest =>
      have nothing : skipSpace rest = [] := by simpa using trailing
      obtain ⟨left, split, padded⟩ := found.padded
      rw [nothing, List.append_nil] at split
      rwa [IsWrittenAs, split]

mutual

/-- A skimming reader meets no fault in what is spelled. -/
theorem Spells.skim_eq_none : (outline : Outline) → (text : List Char) → Spells outline text →
    outline.skim = none
  | null, _, _ | bool _, _, _ | number _, _, _ | string _, _, _ => by rw [skim] <;> simp
  | array items ending, text, h => by
    rw [Spells] at h
    obtain ⟨rfl, inner, -, row⟩ := h
    rw [skim, SpellsItems.skimItems_eq_none items inner row]
    rfl
  | object members ending, text, h => by
    rw [Spells] at h
    obtain ⟨rfl, inner, -, row⟩ := h
    rw [skim, SpellsMembers.skimMembers_eq_none members inner row]
    rfl
  | cut _ _, _, h => by
    rw [Spells] at h
    exact h.elim

theorem SpellsItems.skimItems_eq_none : (items : List Outline) → (text : List Char) →
    SpellsItems items text → skimItems items = none
  | [], _, _ => by rw [skimItems]
  | [item], text, h => by
    rw [SpellsItems] at h
    obtain ⟨_, core, _, _, _, _, spells⟩ := h
    rw [skimItems, skimItems, Spells.skim_eq_none item core spells]
    rfl
  | item :: next :: items, text, h => by
    obtain ⟨_, right, _, ⟨_, core, _, _, _, _, spells⟩, row⟩ := spellsItems_cons.mp h
    rw [skimItems, Spells.skim_eq_none item core spells,
      SpellsItems.skimItems_eq_none (next :: items) right row]
    rfl

theorem SpellsMembers.skimMembers_eq_none :
    (members : List (Except JsonFault String × Outline)) → (text : List Char) →
    SpellsMembers members text → skimMembers members = none
  | [], _, _ => by rw [skimMembers]
  | [(key, value)], text, h => by
    rw [SpellsMembers] at h
    obtain ⟨_, _, _, _, _, core, _, _, _, _, spells⟩ := h
    rw [skimMembers, skimMembers, Spells.skim_eq_none value core spells]
    rfl
  | (key, value) :: next :: members, text, h => by
    obtain ⟨_, right, _, ⟨_, _, _, _, _, core, _, _, _, _, spells⟩, row⟩ := spellsMembers_cons.mp h
    rw [skimMembers, Spells.skim_eq_none value core spells,
      SpellsMembers.skimMembers_eq_none (next :: members) right row]
    rfl

end

theorem IsWrittenAs.skim_eq_none {outline : Outline} {text : String}
    (h : outline.IsWrittenAs text) : outline.skim = none := by
  obtain ⟨_, core, _, _, _, _, spells⟩ := h
  exact Spells.skim_eq_none outline core spells

end TinyScript.Outline
