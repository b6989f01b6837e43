import TinyScript.Json.Outline
import TinyScript.Proofs.JsonNumerals

/-!
# JSON text is read as its value

The text of a JSON value, in any layout whose white space is that of JSON, is read as the outline of
the value: a string as itself, a number as what its numeral denotes, an array and an object as the
outlines of their parts in their order. The outline is then read as the value with each number
written and read again, unless the value is nested too deeply.
-/

namespace TinyScript

/-! ## Strings -/

namespace JsonString

theorem hexValue?_hexEscape : ∀ unit < 0x20,
    hexValue? ['0', '0', Nat.digitChar (unit / 16), Nat.digitChar (unit % 16)] = some unit := by
  decide

section Plain

variable {char : Char} (quote : char ≠ '"') (backslash : char ≠ '\\')
  (visible : ¬ char.toNat < 0x20) (rest : List Char)
include quote backslash visible

theorem read_cons : read (char :: rest) = push char (read rest) := by
  rw [read, if_neg visible]
  all_goals simp_all

theorem skim_cons : skim (char :: rest) = skim rest := by
  rw [skim, if_neg visible]
  all_goals simp_all

end Plain

/-- An escaped character is decoded again. -/
theorem read_escapeChar (char : Char) (rest : List Char) :
    read (Json.escapeChar char ++ rest) = push char (read rest) := by
  unfold Json.escapeChar
  split
  case h_8 quote backslash _ _ _ _ _ =>
    by_cases control : char.toNat < 0x20
    · have unit := hexValue?_hexEscape char.toNat control
      have low : isLowSurrogate char.toNat = false := by
        simp only [isLowSurrogate, Bool.and_eq_false_iff, decide_eq_false_iff_not]
        omega
      have high : isHighSurrogate char.toNat = false := by
        simp only [isHighSurrogate, Bool.and_eq_false_iff, decide_eq_false_iff_not]
        omega
      rw [if_pos control]
      simp [Json.hexEscape, read, unit, low, high]
    · rw [if_neg control]
      exact read_cons quote backslash control rest
  all_goals simp [read, escaped?]

theorem skim_escapeChar (char : Char) (rest : List Char) :
    skim (Json.escapeChar char ++ rest) = skim rest := by
  unfold Json.escapeChar
  split
  case h_8 quote backslash _ _ _ _ _ =>
    by_cases control : char.toNat < 0x20
    · rw [if_pos control]
      simp [Json.hexEscape, skim, hexValue?_hexEscape char.toNat control]
    · rw [if_neg control]
      exact skim_cons quote backslash control rest
  all_goals simp [skim, escaped?]

theorem read_escaped (chars rest : List Char) :
    read (chars.flatMap Json.escapeChar ++ '"' :: rest) = .ok (chars, rest) := by
  induction chars with
  | nil => simp [read]
  | cons char chars ih =>
    rw [List.flatMap_cons, List.append_assoc, read_escapeChar, ih]
    rfl

theorem skim_escaped (chars rest : List Char) :
    skim (chars.flatMap Json.escapeChar ++ '"' :: rest) = .ok rest := by
  induction chars with
  | nil => simp [skim]
  | cons char chars ih => rw [List.flatMap_cons, List.append_assoc, skim_escapeChar, ih]

end JsonString

/-- What stands behind the opening quote of a string. -/
theorem Json.quote_toList (value : String) :
    (quote value).toList = '"' :: (value.toList.flatMap escapeChar ++ ['"']) := by
  simp [quote]

namespace Outline

theorem quoted_escaped (value : String) (rest : List Char) :
    quoted (value.toList.flatMap Json.escapeChar ++ '"' :: rest) = (.ok value, .ok rest) := by
  rw [quoted, JsonString.read_escaped, JsonString.skim_escaped]
  simp [Except.map]

/-! ## White space -/

theorem skipSpace_append {space : List Char} (blank : ∀ char ∈ space, isSpace char)
    (text : List Char) : skipSpace (space ++ text) = skipSpace text :=
  List.dropWhile_append_of_pos blank

theorem skipSpace_cons {char : Char} (h : isSpace char = false) (text : List Char) :
    skipSpace (char :: text) = char :: text := by
  simp [skipSpace, h]

theorem skipSpace_skipSpace (text : List Char) : skipSpace (skipSpace text) = skipSpace text := by
  induction text with
  | nil => rfl
  | cons char text ih =>
    by_cases space : isSpace char = true
    · have skipped : skipSpace (char :: text) = skipSpace text := by simp [skipSpace, space]
      rw [skipped, ih]
    · have kept := skipSpace_cons (Bool.eq_false_iff.mpr space) text
      rw [kept, kept]

/-- White space ends a numeral. -/
theorem endsNumeral_append {space text : List Char} (blank : ∀ char ∈ space, isSpace char)
    (ends : endsNumeral text = true) : endsNumeral (space ++ text) = true := by
  cases space with
  | nil => exact ends
  | cons char space =>
    have isSpace := blank char List.mem_cons_self
    simp only [Outline.isSpace, Bool.or_eq_true, decide_eq_true_eq] at isSpace
    rcases isSpace with ((rfl | rfl) | rfl) | rfl <;> rfl

/-- White space in front of a value does not matter. -/
theorem value_skipSpace (bound : Nat) (text : List Char) :
    value bound (skipSpace text) = value bound text := by
  cases bound with
  | zero => rfl
  | succ bound => rw [value, value, skipSpace_skipSpace]

theorem value_append {space : List Char} (blank : ∀ char ∈ space, isSpace char) (bound : Nat)
    (text : List Char) : value bound (space ++ text) = value bound text := by
  rw [← value_skipSpace bound (space ++ text), skipSpace_append blank, value_skipSpace]

theorem itemsFrom_skipSpace (bound rounds : Nat) (text : List Char) :
    itemsFrom (value bound) rounds (skipSpace text) = itemsFrom (value bound) rounds text := by
  cases rounds with
  | zero => rfl
  | succ rounds => rw [itemsFrom, itemsFrom, value_skipSpace]

theorem membersFrom_skipSpace (read : List Char → Reading Outline) (rounds : Nat)
    (text : List Char) :
    membersFrom read rounds (skipSpace text) = membersFrom read rounds text := by
  cases rounds with
  | zero => rfl
  | succ rounds => rw [membersFrom, membersFrom, member, member, skipSpace_skipSpace]

/-! ## Values -/

theorem value_of_numeral {char : Char} (h : char = '-' ∨ char.isDigit = true) (bound : Nat)
    (text : List Char) : value (bound + 1) (char :: text) = numeralFrom (char :: text) := by
  have other : char ∉ [' ', '\t', '\n', '\r', 'n', 't', 'f', '"', '[', '\x7b'] := by
    intro member
    have no : ∀ other ∈ [' ', '\t', '\n', '\r', 'n', 't', 'f', '"', '[', '\x7b'],
        ¬ (other = '-' ∨ other.isDigit = true) := by simp
    exact no char member h
  simp only [List.mem_cons, List.not_mem_nil, or_false, not_or] at other
  have notSpace : isSpace char = false := by simp [isSpace, other]
  have starts : (decide (char = '-') || char.isDigit) = true := by simpa using h
  rw [value, skipSpace_cons notSpace]
  split
  case h_8 equal =>
    cases equal
    exact if_pos starts
  all_goals simp_all

theorem numeralFrom_render (number : JsonNumber) {rest : List Char}
    (ends : endsNumeral rest = true) :
    numeralFrom (number.render.toList ++ rest) =
      ⟨.number (number.reread.elim (.error .malformed) .ok), some rest⟩ := by
  rw [numeralFrom, ← number.numeral_text, JsonNumeral.scan_text number.numeral_proper ends]
  rfl

section Rows

variable {read : List Char → Reading Outline} {rounds bound : Nat} {text rest : List Char}

theorem itemsFrom_comma {item : Outline} {closing : List Char}
    (first : read text = ⟨item, some closing⟩) (comma : skipSpace closing = ',' :: rest)
    {items : List Outline} {behind : List Char}
    (others : itemsFrom read rounds rest = ⟨(items, none), some behind⟩) :
    itemsFrom read (rounds + 1) text = ⟨(item :: items, none), some behind⟩ := by
  rw [itemsFrom, first]
  simp only [comma, others]

theorem itemsFrom_close {item : Outline} {closing : List Char}
    (last : read text = ⟨item, some closing⟩) (closes : skipSpace closing = ']' :: rest) :
    itemsFrom read (rounds + 1) text = ⟨([item], none), some rest⟩ := by
  rw [itemsFrom, last]
  simp only [closes]

theorem arrayFrom_items {char : Char} {tail : List Char} (skipped : skipSpace text = char :: tail)
    (opens : char ≠ ']') {items : List Outline}
    (h : itemsFrom (value bound) bound text = ⟨(items, none), some rest⟩) :
    arrayFrom bound (value bound) text = ⟨.array items none, some rest⟩ := by
  rw [← itemsFrom_skipSpace, skipped] at h
  rw [arrayFrom, skipped]
  simp [opens, h]

theorem member_eq {space : List Char} (blank : ∀ char ∈ space, isSpace char) (key : String)
    (behind : List Char) :
    member read (space ++ '"' :: (key.toList.flatMap Json.escapeChar ++ '"' :: (':' :: behind))) =
      ⟨(.ok key, (read behind).part), (read behind).rest⟩ := by
  rw [member, skipSpace_append blank, skipSpace_cons rfl]
  simp only [quoted_escaped, memberValue, skipSpace_cons (show isSpace ':' = false from rfl)]

theorem membersFrom_comma {first : Except JsonFault String × Outline} {closing : List Char}
    (member : member read text = ⟨first, some closing⟩) (comma : skipSpace closing = ',' :: rest)
    {members : List (Except JsonFault String × Outline)} {behind : List Char}
    (others : membersFrom read rounds rest = ⟨(members, none), some behind⟩) :
    membersFrom read (rounds + 1) text = ⟨(first :: members, none), some behind⟩ := by
  rw [membersFrom, member]
  simp only [comma, others]

theorem membersFrom_close {last : Except JsonFault String × Outline} {closing : List Char}
    (member : member read text = ⟨last, some closing⟩)
    (closes : skipSpace closing = '\x7d' :: rest) :
    membersFrom read (rounds + 1) text = ⟨([last], none), some rest⟩ := by
  rw [membersFrom, member]
  simp only [closes]

theorem objectFrom_members {char : Char} {tail : List Char}
    (skipped : skipSpace text = char :: tail) (opens : char ≠ '\x7d')
    {members : List (Except JsonFault String × Outline)}
    (h : membersFrom read bound text = ⟨(members, none), some rest⟩) :
    objectFrom bound read text = ⟨.object members none, some rest⟩ := by
  rw [← membersFrom_skipSpace, skipped] at h
  rw [objectFrom, skipped]
  simp [opens, h]

end Rows

end Outline

namespace Json

/-- The white space of a layout is white space of JSON. -/
structure Layout.Blank (layout : Layout) : Prop where
  line : ∀ depth, ∀ char ∈ (layout.line depth).toList, Outline.isSpace char
  colon : ∃ space, layout.colon.toList = ':' :: space ∧ ∀ char ∈ space, Outline.isSpace char

theorem Layout.pretty_blank : Layout.pretty.Blank where
  line depth := by
    intro char member
    simp only [Layout.pretty, String.toList_append, String.toList_ofList, List.mem_append,
      List.mem_replicate] at member
    rcases member with newline | blank
    · have : char = '\n' := by simpa using newline
      rw [this]
      rfl
    · rw [blank.2]
      rfl
  colon := ⟨[' '], rfl, by simp [Outline.isSpace]⟩

mutual

/-- What the text of a value is read as. -/
def outline : Json → Outline
  | null => .null
  | bool value => .bool value
  | number value => .number (value.reread.elim (.error .malformed) .ok)
  | string value => .string (.ok value)
  | array items => .array (outlineItems items) none
  | object members => .object (outlineMembers members) none

/-- What the texts of items are read as. -/
def outlineItems : List Json → List Outline
  | [] => []
  | item :: items => outline item :: outlineItems items

/-- What the texts of members are read as. -/
def outlineMembers : List (String × Json) → List (Except JsonFault String × Outline)
  | [] => []
  | (key, value) :: members => (.ok key, outline value) :: outlineMembers members

end

/-- The text of a value starts with what is neither white space nor a closing bracket. -/
theorem exists_render (layout : Layout) (depth : Nat) (json : Json) : ∃ char text,
    (json.render layout depth).toList = char :: text ∧ Outline.isSpace char = false ∧
      char ≠ ']' := by
  cases json with
  | null => exact ⟨'n', ['u', 'l', 'l'], by simp [render], rfl, by decide⟩
  | bool value =>
    cases value with
    | true => exact ⟨'t', ['r', 'u', 'e'], by simp [render], rfl, by decide⟩
    | false => exact ⟨'f', ['a', 'l', 's', 'e'], by simp [render], rfl, by decide⟩
  | number value =>
    obtain ⟨char, text, rendered, starts⟩ := value.exists_render
    have no : ∀ other ∈ [' ', '\t', '\n', '\r', ']'], ¬ (other = '-' ∨ other.isDigit = true) := by
      simp
    have other : char ∉ [' ', '\t', '\n', '\r', ']'] := fun member => no char member starts
    simp only [List.mem_cons, List.not_mem_nil, or_false, not_or] at other
    exact ⟨char, text, by rw [render, rendered], by simp [Outline.isSpace, other], other.2.2.2.2⟩
  | string value => exact ⟨'"', _, by rw [render, quote_toList], rfl, by decide⟩
  | array items =>
    cases items with
    | nil => exact ⟨'[', [']'], by simp [render], rfl, by decide⟩
    | cons item items => exact ⟨'[', _, by simp [render]; rfl, rfl, by decide⟩
  | object members =>
    cases members with
    | nil => exact ⟨'\x7b', ['\x7d'], by simp [render], rfl, by decide⟩
    | cons member members => exact ⟨'\x7b', _, by simp [render]; rfl, rfl, by decide⟩

theorem length_le_renderItems (layout : Layout) (depth : Nat) : (items : List Json) →
    items.length ≤ (renderItems layout depth items).toList.length
  | [] => Nat.zero_le _
  | [item] => by
    obtain ⟨char, text, rendered, _⟩ := item.exists_render layout depth
    simp only [renderItems, String.toList_append, rendered, List.length_append, List.length_cons,
      List.length_nil]
    omega
  | item :: next :: items => by
    have others := length_le_renderItems layout depth (next :: items)
    simp only [renderItems, String.toList_append, List.length_append, List.length_cons] at others ⊢
    have comma : (",".toList).length = 1 := rfl
    omega

theorem length_le_renderMembers (layout : Layout) (depth : Nat) : (members : List (String × Json)) →
    members.length ≤ (renderMembers layout depth members).toList.length
  | [] => Nat.zero_le _
  | [(key, value)] => by
    obtain ⟨char, text, rendered, _⟩ := value.exists_render layout depth
    simp only [renderMembers, String.toList_append, rendered, List.length_append, List.length_cons,
      List.length_nil]
    omega
  | (key, value) :: next :: members => by
    have others := length_le_renderMembers layout depth (next :: members)
    simp only [renderMembers, String.toList_append, List.length_append,
      List.length_cons] at others ⊢
    have comma : (",".toList).length = 1 := rfl
    omega

section Blank

variable {layout : Layout} (blank : layout.Blank)
include blank

/-- A numeral ends before a closing bracket on a line of its own. -/
theorem endsNumeral_line (depth : Nat) {closing : Char}
    (ends : endsNumeral [closing] = true) (rest : List Char) :
    endsNumeral ((layout.line depth).toList ++ closing :: rest) = true :=
  Outline.endsNumeral_append (blank.line depth) ends

theorem skipSpace_line (depth : Nat) {closing : Char} (visible : Outline.isSpace closing = false)
    (rest : List Char) :
    Outline.skipSpace ((layout.line depth).toList ++ closing :: rest) = closing :: rest := by
  rw [Outline.skipSpace_append (blank.line depth), Outline.skipSpace_cons visible]

/-- The texts of items start with what is no closing bracket. -/
theorem skipSpace_renderItems (depth : Nat) (item : Json) (items : List Json)
    (behind : List Char) : ∃ char tail,
    Outline.skipSpace ((renderItems layout depth (item :: items)).toList ++ behind) = char :: tail ∧
      char ≠ ']' := by
  obtain ⟨char, text, rendered, notSpace, opens⟩ := item.exists_render layout depth
  obtain ⟨more, split⟩ : ∃ more, (renderItems layout depth (item :: items)).toList ++ behind =
      (layout.line depth).toList ++ char :: more := by
    cases items <;> exact ⟨_, by simp [renderItems, rendered]; rfl⟩
  refine ⟨char, more, ?_, opens⟩
  rw [split, skipSpace_line blank depth notSpace]

/-- The texts of members start with the quote of a key. -/
theorem skipSpace_renderMembers (depth : Nat) (member : String × Json)
    (members : List (String × Json)) (behind : List Char) : ∃ tail,
    Outline.skipSpace ((renderMembers layout depth (member :: members)).toList ++ behind) =
      '"' :: tail := by
  obtain ⟨key, value⟩ := member
  obtain ⟨more, split⟩ : ∃ more,
      (renderMembers layout depth ((key, value) :: members)).toList ++ behind =
        (layout.line depth).toList ++ '"' :: more := by
    cases members <;> exact ⟨_, by simp [renderMembers, quote_toList]; rfl⟩
  refine ⟨more, ?_⟩
  rw [split, skipSpace_line blank depth rfl]

/-- An array is read by its items. -/
theorem value_array {item : Json} {items : List Json} {depth bound : Nat} {rest : List Char}
    (h : Outline.itemsFrom (Outline.value bound) bound
        ((renderItems layout (depth + 1) (item :: items)).toList ++
          ((layout.line depth).toList ++ ']' :: rest)) =
      ⟨(outlineItems (item :: items), none), some rest⟩) :
    Outline.value (bound + 1) ((render layout depth (array (item :: items))).toList ++ rest) =
      ⟨outline (array (item :: items)), some rest⟩ := by
  have text : (render layout depth (array (item :: items))).toList ++ rest =
      '[' :: ((renderItems layout (depth + 1) (item :: items)).toList ++
        ((layout.line depth).toList ++ ']' :: rest)) := by simp [render]
  obtain ⟨char, tail, skipped, opens⟩ := skipSpace_renderItems blank (depth + 1) item items
    ((layout.line depth).toList ++ ']' :: rest)
  rw [text, Outline.value, Outline.skipSpace_cons rfl]
  exact Outline.arrayFrom_items skipped opens h

/-- An object is read by its members. -/
theorem value_object {member : String × Json} {members : List (String × Json)}
    {depth bound : Nat} {rest : List Char}
    (h : Outline.membersFrom (Outline.value bound) bound
        ((renderMembers layout (depth + 1) (member :: members)).toList ++
          ((layout.line depth).toList ++ '\x7d' :: rest)) =
      ⟨(outlineMembers (member :: members), none), some rest⟩) :
    Outline.value (bound + 1) ((render layout depth (object (member :: members))).toList ++ rest) =
      ⟨outline (object (member :: members)), some rest⟩ := by
  have text : (render layout depth (object (member :: members))).toList ++ rest =
      '\x7b' :: ((renderMembers layout (depth + 1) (member :: members)).toList ++
        ((layout.line depth).toList ++ '\x7d' :: rest)) := by simp [render]
  obtain ⟨tail, skipped⟩ := skipSpace_renderMembers blank (depth + 1) member members
    ((layout.line depth).toList ++ '\x7d' :: rest)
  rw [text, Outline.value, Outline.skipSpace_cons rfl]
  exact Outline.objectFrom_members skipped (by decide) h

/-- The text of a member is read as its key and the outline of its value. -/
theorem member_render (key : String) {value : Json} {depth bound : Nat} {closing : List Char}
    (h : Outline.value bound ((value.render layout depth).toList ++ closing) =
      ⟨value.outline, some closing⟩) :
    Outline.member (Outline.value bound) ((layout.line depth ++ quote key ++ layout.colon ++
        render layout depth value).toList ++ closing) =
      ⟨(.ok key, value.outline), some closing⟩ := by
  obtain ⟨space, colon, spaces⟩ := blank.colon
  have text : (layout.line depth ++ quote key ++ layout.colon ++
      render layout depth value).toList ++ closing =
      (layout.line depth).toList ++ '"' :: (key.toList.flatMap escapeChar ++
        '"' :: (':' :: (space ++ ((render layout depth value).toList ++ closing)))) := by
    simp [quote_toList, colon]
  rw [text, Outline.member_eq (blank.line depth), Outline.value_append spaces, h]

mutual

/-- The text of a value is read as its outline, whatever follows. -/
theorem value_render : (json : Json) → ∀ (depth bound : Nat) {rest : List Char},
    (json.render layout depth).toList.length < bound → endsNumeral rest = true →
    Outline.value bound ((json.render layout depth).toList ++ rest) = ⟨json.outline, some rest⟩
  | null => by
    intro depth bound rest fits ends
    obtain ⟨bound, rfl⟩ := Nat.exists_eq_succ_of_ne_zero (Nat.ne_zero_of_lt fits)
    simp [render, outline, Outline.value, Outline.skipSpace, Outline.isSpace, Outline.word]
  | bool value => by
    intro depth bound rest fits ends
    obtain ⟨bound, rfl⟩ := Nat.exists_eq_succ_of_ne_zero (Nat.ne_zero_of_lt fits)
    cases value <;>
      simp [render, outline, Outline.value, Outline.skipSpace, Outline.isSpace, Outline.word]
  | number value => by
    intro depth bound rest fits ends
    obtain ⟨bound, rfl⟩ := Nat.exists_eq_succ_of_ne_zero (Nat.ne_zero_of_lt fits)
    obtain ⟨char, text, rendered, starts⟩ := value.exists_render
    have read := Outline.numeralFrom_render value ends
    rw [rendered] at read
    rw [render, outline, rendered, List.cons_append, Outline.value_of_numeral starts]
    exact read
  | string value => by
    intro depth bound rest fits ends
    obtain ⟨bound, rfl⟩ := Nat.exists_eq_succ_of_ne_zero (Nat.ne_zero_of_lt fits)
    have opened : Outline.skipSpace ('"' :: (value.toList.flatMap escapeChar ++ '"' :: rest)) =
        '"' :: (value.toList.flatMap escapeChar ++ '"' :: rest) := Outline.skipSpace_cons rfl _
    rw [render, outline, quote_toList, List.cons_append, List.append_assoc, List.singleton_append,
      Outline.value, opened]
    simp only [Outline.stringFrom, Outline.quoted_escaped]
  | array [] => by
    intro depth bound rest fits ends
    obtain ⟨bound, rfl⟩ := Nat.exists_eq_succ_of_ne_zero (Nat.ne_zero_of_lt fits)
    simp [render, outline, outlineItems, Outline.value, Outline.skipSpace, Outline.isSpace,
      Outline.arrayFrom]
  | array (item :: items) => by
    intro depth bound rest fits ends
    obtain ⟨bound, rfl⟩ := Nat.exists_eq_succ_of_ne_zero (Nat.ne_zero_of_lt fits)
    have inside : (renderItems layout (depth + 1) (item :: items)).toList.length < bound := by
      rw [render] at fits
      simp only [String.toList_append, List.length_append] at fits
      have bracket : ("[".toList).length = 1 := rfl
      omega
    have enough := length_le_renderItems layout (depth + 1) (item :: items)
    apply value_array blank
    exact itemsFrom_render (item :: items) (depth + 1) bound bound (by simp) inside (by omega)
      (endsNumeral_line blank depth rfl rest) (skipSpace_line blank depth rfl rest)
  | object [] => by
    intro depth bound rest fits ends
    obtain ⟨bound, rfl⟩ := Nat.exists_eq_succ_of_ne_zero (Nat.ne_zero_of_lt fits)
    simp [render, outline, outlineMembers, Outline.value, Outline.skipSpace, Outline.isSpace,
      Outline.objectFrom]
  | object (member :: members) => by
    intro depth bound rest fits ends
    obtain ⟨bound, rfl⟩ := Nat.exists_eq_succ_of_ne_zero (Nat.ne_zero_of_lt fits)
    have inside : (renderMembers layout (depth + 1) (member :: members)).toList.length < bound := by
      rw [render] at fits
      simp only [String.toList_append, List.length_append] at fits
      have brace : ("\x7b".toList).length = 1 := rfl
      omega
    have enough := length_le_renderMembers layout (depth + 1) (member :: members)
    apply value_object blank
    exact membersFrom_render (member :: members) (depth + 1) bound bound (by simp) inside (by omega)
      (endsNumeral_line blank depth rfl rest) (skipSpace_line blank depth rfl rest)

/-- The texts of items are read as their outlines, up to the closing bracket. -/
theorem itemsFrom_render : (items : List Json) →
    ∀ (depth bound rounds : Nat) {closing rest : List Char}, items ≠ [] →
    (renderItems layout depth items).toList.length < bound → items.length ≤ rounds →
    endsNumeral closing = true → Outline.skipSpace closing = ']' :: rest →
    Outline.itemsFrom (Outline.value bound) rounds
        ((renderItems layout depth items).toList ++ closing) =
      ⟨(outlineItems items, none), some rest⟩
  | [] => by
    intro _ _ _ _ _ nonempty
    exact absurd rfl nonempty
  | [item] => by
    intro depth bound rounds closing rest _ fits enough ends closes
    obtain ⟨rounds, rfl⟩ := Nat.exists_eq_succ_of_ne_zero (Nat.ne_zero_of_lt enough)
    have text : (renderItems layout depth [item]).toList ++ closing =
        (layout.line depth).toList ++ ((render layout depth item).toList ++ closing) := by
      simp [renderItems]
    rw [text]
    apply Outline.itemsFrom_close _ closes
    rw [Outline.value_append (blank.line depth)]
    apply value_render item depth bound _ ends
    rw [renderItems, String.toList_append, List.length_append] at fits
    omega
  | item :: next :: items => by
    intro depth bound rounds closing rest _ fits enough ends closes
    obtain ⟨rounds, rfl⟩ := Nat.exists_eq_succ_of_ne_zero (Nat.ne_zero_of_lt enough)
    have text : (renderItems layout depth (item :: next :: items)).toList ++ closing =
        (layout.line depth).toList ++ ((render layout depth item).toList ++
          ',' :: ((renderItems layout depth (next :: items)).toList ++ closing)) := by
      simp [renderItems]
    simp only [renderItems, String.toList_append, List.length_append] at fits
    rw [text]
    apply Outline.itemsFrom_comma
    · rw [Outline.value_append (blank.line depth)]
      exact value_render item depth bound (by omega) rfl
    · exact Outline.skipSpace_cons rfl _
    · exact itemsFrom_render (next :: items) depth bound rounds (by simp) (by omega)
        (Nat.le_of_succ_le_succ enough) ends closes

/-- The texts of members are read as their outlines, up to the closing brace. -/
theorem membersFrom_render : (members : List (String × Json)) → ∀ (depth bound rounds : Nat)
    {closing rest : List Char}, members ≠ [] →
    (renderMembers layout depth members).toList.length < bound → members.length ≤ rounds →
    endsNumeral closing = true → Outline.skipSpace closing = '\x7d' :: rest →
    Outline.membersFrom (Outline.value bound) rounds
        ((renderMembers layout depth members).toList ++ closing) =
      ⟨(outlineMembers members, none), some rest⟩
  | [] => by
    intro _ _ _ _ _ nonempty
    exact absurd rfl nonempty
  | [(key, value)] => by
    intro depth bound rounds closing rest _ fits enough ends closes
    obtain ⟨rounds, rfl⟩ := Nat.exists_eq_succ_of_ne_zero (Nat.ne_zero_of_lt enough)
    simp only [renderMembers, String.toList_append, List.length_append] at fits
    apply Outline.membersFrom_close _ closes
    rw [renderMembers]
    exact member_render blank key (value_render value depth bound (by omega) ends)
  | (key, value) :: next :: members => by
    intro depth bound rounds closing rest _ fits enough ends closes
    obtain ⟨rounds, rfl⟩ := Nat.exists_eq_succ_of_ne_zero (Nat.ne_zero_of_lt enough)
    have text : (renderMembers layout depth ((key, value) :: next :: members)).toList ++ closing =
        (layout.line depth ++ quote key ++ layout.colon ++ render layout depth value).toList ++
          ',' :: ((renderMembers layout depth (next :: members)).toList ++ closing) := by
      simp [renderMembers]
    simp only [renderMembers, String.toList_append, List.length_append] at fits
    rw [text]
    apply Outline.membersFrom_comma
    · exact member_render blank key (value_render value depth bound (by omega) rfl)
    · exact Outline.skipSpace_cons rfl _
    · exact membersFrom_render (next :: members) depth bound rounds (by simp) (by omega)
        (Nat.le_of_succ_le_succ enough) ends closes

end

theorem ofText_render (json : Json) :
    Outline.ofText (json.render layout 0) = (json.outline, false) := by
  have read : Outline.value ((json.render layout 0).toList.length + 1)
      ((json.render layout 0).toList ++ []) = ⟨json.outline, some []⟩ :=
    value_render blank json 0 _ (Nat.lt_succ_self _) rfl
  rw [List.append_nil] at read
  simp [Outline.ofText, read, Outline.skipSpace]

end Blank

/-! ## Reading values back -/

mutual

/-- The value with each of its numbers written and read again; nothing if one of them is then beyond
    the finite numbers. -/
def reread : Json → Option Json
  | number value => value.reread.map number
  | array items => (rereadItems items).map array
  | object members => (rereadMembers members).map object
  | json => some json

/-- The items with each of their numbers written and read again. -/
def rereadItems : List Json → Option (List Json)
  | [] => some []
  | item :: items => return (← reread item) :: (← rereadItems items)

/-- The members with each of their numbers written and read again. -/
def rereadMembers : List (String × Json) → Option (List (String × Json))
  | [] => some []
  | (key, value) :: members => return (key, ← reread value) :: (← rereadMembers members)

end

/-- What is read of a value: an error if it is nested too deeply or has a number that cannot be
    read. -/
def orError {ε α : Type} (error : ε) (fits : Bool) (value : Option α) : Except ε α :=
  if fits then value.elim (.error error) .ok else .error error

theorem orError_bind {ε α β γ : Type} (error : ε) (f : α → β → γ) (fits fits' : Bool)
    (first : Option α) (second : Option β) :
    (do return f (← orError error fits first) (← orError error fits' second)) =
      orError error (fits && fits') (do return f (← first) (← second)) := by
  cases fits with
  | false => rfl
  | true =>
    cases first with
    | none => cases fits' <;> rfl
    | some =>
      cases fits' with
      | false => rfl
      | true => cases second <;> rfl

theorem orError_ending {α β : Type} (fault : JsonFault) (f : α → β) (fits : Bool)
    (value : Option α) :
    (do
      let value ← orError fault fits value
      Outline.checkEnding none
      return f value) = orError fault fits (value.map f) := by
  cases fits with
  | false => rfl
  | true => cases value <;> rfl

mutual

/-- An outline of a value can be read if the value is not nested too deeply and its numbers can. -/
theorem read_outline : (json : Json) → (levels : Nat) →
    json.outline.read levels = orError .malformed (json.depth ≤ levels) json.reread
  | null, levels => by simp [outline, Outline.read, depth, reread, orError]
  | bool value, levels => by simp [outline, Outline.read, depth, reread, orError]
  | string value, levels => by simp [outline, Outline.read, depth, reread, orError, Except.map]
  | number value, levels => by
    cases read : value.reread <;>
      simp [outline, Outline.read, depth, reread, orError, read, Except.map]
  | array items, levels => by
    rw [outline, Outline.read, depth, reread]
    cases levels with
    | zero => rfl
    | succ levels =>
      rw [if_neg (Nat.succ_ne_zero levels), Nat.add_sub_cancel, readItems_outline items levels,
        orError_ending]
      simp only [Nat.add_le_add_iff_right]
  | object members, levels => by
    rw [outline, Outline.read, depth, reread]
    cases levels with
    | zero => rfl
    | succ levels =>
      rw [if_neg (Nat.succ_ne_zero levels), Nat.add_sub_cancel, readMembers_outline members levels,
        orError_ending]
      simp only [Nat.add_le_add_iff_right]

theorem readItems_outline : (items : List Json) → (levels : Nat) →
    Outline.readItems levels (outlineItems items) =
      orError .malformed (depthOfItems items ≤ levels) (rereadItems items)
  | [], levels => by simp [outlineItems, Outline.readItems, depthOfItems, rereadItems, orError]
  | item :: items, levels => by
    rw [outlineItems, Outline.readItems, read_outline item levels, readItems_outline items levels,
      orError_bind, depthOfItems, rereadItems]
    simp only [Nat.max_le, Bool.decide_and]

theorem readMembers_outline : (members : List (String × Json)) → (levels : Nat) →
    Outline.readMembers levels (outlineMembers members) =
      orError .malformed (depthOfMembers members ≤ levels) (rereadMembers members)
  | [], levels => by
    simp [outlineMembers, Outline.readMembers, depthOfMembers, rereadMembers, orError]
  | (key, value) :: members, levels => by
    have row := orError_bind JsonFault.malformed (fun value members => (key, value) :: members)
      (value.depth ≤ levels) (depthOfMembers members ≤ levels) value.reread (rereadMembers members)
    rw [← read_outline value levels, ← readMembers_outline members levels] at row
    rw [outlineMembers, Outline.readMembers, depthOfMembers, rereadMembers]
    simp only [Nat.max_le, Bool.decide_and]
    exact row

end

end Json

end TinyScript
