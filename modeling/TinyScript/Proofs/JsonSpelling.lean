import Mathlib
import TinyScript.Proofs.JsonText

/-!
# Spellings of JSON values

An outline is spelled by many texts: white space may stand around every value, key and mark, a
string may be escaped in several ways, and a number may be written with other digits. Each of
these texts is read as the outline, whatever follows that does not go on with it.
-/

namespace TinyScript

/-- An attempt and what follows it succeed if both do. -/
theorem bind_eq_ok_iff {ε α β : Type} {attempt : Except ε α} {more : α → Except ε β} {result : β} :
    attempt >>= more = .ok result ↔ ∃ value, attempt = .ok value ∧ more value = .ok result := by
  cases attempt with
  | error error => simp [bind, Except.bind]
  | ok value => simp [bind, Except.bind]

/-! ## Strings -/

namespace JsonString

/-- The text of a string behind its opening quote, up to and with the closing one. -/
inductive Quoting : List Char → Prop
  | close : Quoting ['"']
  | plain {char : Char} {text : List Char} (quote : char ≠ '"') (backslash : char ≠ '\\')
      (visible : ¬ char.toNat < 0x20) (more : Quoting text) : Quoting (char :: text)
  | letter {char decoded : Char} {text : List Char} (known : escaped? char = some decoded)
      (more : Quoting text) : Quoting ('\\' :: char :: text)
  | unit {a b c d : Char} {text : List Char} {unit : Nat} (hex : hexValue? [a, b, c, d] = some unit)
      (more : Quoting text) : Quoting ('\\' :: 'u' :: a :: b :: c :: d :: text)

theorem ne_u_of_escaped {char decoded : Char} (known : escaped? char = some decoded) :
    char ≠ 'u' := by
  rintro rfl
  cases known

theorem skim_quoting {inner : List Char} (quoting : Quoting inner) (more : List Char) :
    skim (inner ++ more) = .ok more := by
  induction quoting with
  | close => simp [skim]
  | plain quote backslash visible _ ih =>
    rw [List.cons_append, skim_cons quote backslash visible, ih]
  | letter known _ ih => simp [skim, known, ne_u_of_escaped known, ih]
  | unit hex _ ih => simp [skim, hex, ih]

theorem quoting_of_skim {text rest : List Char} (h : skim text = .ok rest) :
    ∃ inner, text = inner ++ rest ∧ Quoting inner := by
  fun_induction skim text generalizing rest with
  | case2 tail =>
    cases h
    exact ⟨['"'], rfl, .close⟩
  | case4 a b c d tail unit hex ih =>
    obtain ⟨inner, rfl, quoting⟩ := ih h
    exact ⟨'\\' :: 'u' :: a :: b :: c :: d :: inner, rfl, .unit hex quoting⟩
  | case7 char tail _ _ decoded known ih =>
    obtain ⟨inner, rfl, quoting⟩ := ih h
    exact ⟨'\\' :: char :: inner, rfl, .letter known quoting⟩
  | case10 char tail quote lone _ _ escape visible ih =>
    obtain ⟨inner, rfl, quoting⟩ := ih h
    refine ⟨char :: inner, rfl, .plain quote ?_ visible quoting⟩
    rintro rfl
    cases all : inner ++ rest with
    | nil => exact lone rfl all
    | cons next tail => exact escape next tail rfl all
  | case1 | case3 | case5 | case6 | case8 | case9 => cases h

theorem read_letter {char decoded : Char} (known : escaped? char = some decoded)
    (rest : List Char) : read ('\\' :: char :: rest) = push decoded (read rest) := by
  simp [read, known, ne_u_of_escaped known]

section Units

variable {a b c d : Char} {unit : Nat} (hex : hexValue? [a, b, c, d] = some unit)
  (low : ¬ isLowSurrogate unit = true) (rest : List Char)
include hex low

theorem read_unit (high : ¬ isHighSurrogate unit = true) :
    read ('\\' :: 'u' :: a :: b :: c :: d :: rest) = push (Char.ofNat unit) (read rest) := by
  simp [read, hex, low, high]

theorem read_pair (high : isHighSurrogate unit = true) {a' b' c' d' : Char} {unit' : Nat}
    (hex' : hexValue? [a', b', c', d'] = some unit') :
    read ('\\' :: 'u' :: a :: b :: c :: d :: '\\' :: 'u' :: a' :: b' :: c' :: d' :: rest) =
      if isLowSurrogate unit' then push (ofSurrogates unit unit') (read rest)
      else .error .malformed := by
  simp [read, hex, low, high, hex']

end Units

theorem map_push (char : Char) (reading : Except JsonFault (List Char × List Char)) :
    (push char reading).map Prod.fst = (reading.map Prod.fst).map (char :: ·) := by
  cases reading <;> rfl

/-- What is decoded does not depend on what follows the closing quote. A first half of a pair looks
    for the second one behind it, so the recursion goes over both at once. -/
theorem read_quoting : {inner : List Char} → Quoting inner → (more : List Char) →
    (read (inner ++ more)).map Prod.fst = (read inner).map Prod.fst
  | _, .close, more => by simp [read, Except.map]
  | _, .plain quote backslash visible rest, more => by
    rw [List.cons_append, read_cons quote backslash visible, read_cons quote backslash visible,
      map_push, map_push, read_quoting rest more]
  | _, .letter known rest, more => by
    rw [List.cons_append, List.cons_append, read_letter known, read_letter known, map_push,
      map_push, read_quoting rest more]
  | _, .unit hex rest, more => by
    rename_i unit
    by_cases low : isLowSurrogate unit = true
    · simp [read, hex, low, Except.map]
    by_cases high : isHighSurrogate unit = true
    · cases rest with
      | close => simp [read, hex, low, high, Except.map]
      | plain quote backslash visible rest => simp [read, hex, low, high, backslash, Except.map]
      | letter known rest => simp [read, hex, low, high, ne_u_of_escaped known, Except.map]
      | unit hex' rest =>
        simp only [List.cons_append, read_pair hex low _ high hex']
        split
        · rw [map_push, map_push, read_quoting rest more]
        · rfl
    · simp only [List.cons_append, read_unit hex low _ high, map_push, read_quoting rest more]

end JsonString

/-- A string is read alike whatever follows its closing quote. -/
theorem Outline.quoted_split {text rest : List Char} {value : Except JsonFault String}
    (h : quoted text = (value, .ok rest)) :
    ∃ inner, text = inner ++ rest ∧ ∀ more, quoted (inner ++ more) = (value, .ok more) := by
  obtain ⟨inner, rfl, quoting⟩ := JsonString.quoting_of_skim (congrArg Prod.snd h)
  have decoded (behind : List Char) : (quoted (inner ++ behind)).1 =
      ((JsonString.read inner).map Prod.fst).map String.ofList := by
    rw [← JsonString.read_quoting quoting behind, quoted]
    cases JsonString.read (inner ++ behind) <;> rfl
  refine ⟨inner, rfl, fun more => Prod.ext ?_ (JsonString.skim_quoting quoting more)⟩
  calc (quoted (inner ++ more)).1
    _ = (quoted (inner ++ rest)).1 := (decoded more).trans (decoded rest).symm
    _ = value := congrArg Prod.fst h

/-! ## Numerals -/

namespace JsonNumeral

theorem digits_of_scanDigits {text digits rest : List Char}
    (h : scanDigits text = .ok (digits, rest)) : text = digits ++ rest ∧ Digits digits := by
  unfold scanDigits at h
  split at h
  · cases h
  next notEmpty =>
    cases h
    exact ⟨List.takeWhile_append_dropWhile.symm, notEmpty, fun char => List.mem_takeWhile_imp⟩

theorem scanSign_split (text : List Char) :
    ∃ sign, text = sign ++ (scanSign text).2 ∧ ∀ digits more, Digits digits →
      scanSign (sign ++ (digits ++ more)) = ((scanSign text).1, digits ++ more) := by
  unfold scanSign
  split
  case h_1 rest => exact ⟨['-'], rfl, fun _ _ _ => rfl⟩
  case h_2 rest => exact ⟨['+'], rfl, fun _ _ _ => rfl⟩
  case h_3 => exact ⟨[], rfl, fun digits more proper => @scanSign_append more digits false proper⟩

/-- What may stand behind the digits of a numeral. -/
theorem endsDigits_of_endsNumeral {more : List Char} (ends : endsNumeral more = true) :
    more.head?.all (!·.isDigit) = true := by
  cases more with
  | nil => rfl
  | cons char more => simp_all [endsNumeral]

theorem scanExponent_split {text rest : List Char} {exponent : Option (Bool × List Char)}
    (h : scanExponent text = .ok (exponent, rest)) :
    ∃ inner, text = inner ++ rest ∧ ∀ more, endsNumeral more = true →
      scanExponent (inner ++ more) = .ok (exponent, more) ∧
      (inner ++ more).head?.all (fun char => !char.isDigit && char != '.') = true := by
  have absent (more : List Char) (ends : endsNumeral more = true) :
      scanExponent more = .ok (none, more) ∧
        more.head?.all (fun char => !char.isDigit && char != '.') = true := by
    refine ⟨@scanExponent_append more none (by simp) ends, ?_⟩
    cases more with
    | nil => rfl
    | cons char more => simp_all [endsNumeral]
  cases text with
  | nil =>
    cases h
    exact ⟨[], rfl, absent⟩
  | cons char tail =>
    rw [scanExponent] at h
    split at h
    case isFalse =>
      cases h
      exact ⟨[], rfl, absent⟩
    case isTrue mark =>
      obtain ⟨sign, split, signs⟩ := scanSign_split tail
      obtain ⟨⟨digits, behind⟩, scanned, found⟩ := bind_eq_ok_iff.mp h
      obtain ⟨row, proper⟩ : (scanSign tail).2 = digits ++ behind ∧ Digits digits :=
        digits_of_scanDigits scanned
      cases found
      refine ⟨char :: (sign ++ digits), by rw [split, row]; simp, fun more ends => ⟨?_, ?_⟩⟩
      · have again := scanDigits_append proper (endsDigits_of_endsNumeral ends)
        rw [List.cons_append, List.append_assoc, scanExponent, if_pos mark, signs _ _ proper]
        exact bind_eq_ok_iff.mpr ⟨_, again, rfl⟩
      · simp only [Bool.or_eq_true, decide_eq_true_eq] at mark
        rcases mark with rfl | rfl <;> rfl

theorem scanFraction_split {text rest fraction : List Char}
    (h : scanFraction text = .ok (fraction, rest)) :
    ∃ inner, text = inner ++ rest ∧ ∀ more,
      more.head?.all (fun char => !char.isDigit && char != '.') = true →
      scanFraction (inner ++ more) = .ok (fraction, more) ∧
      (inner ++ more).head?.all (!·.isDigit) = true := by
  have absent (more : List Char)
      (ends : more.head?.all (fun char => !char.isDigit && char != '.') = true) :
      more.head?.all (!·.isDigit) = true := by
    cases more with
    | nil => rfl
    | cons char more => simp_all
  unfold scanFraction at h
  split at h
  case h_1 tail =>
    obtain ⟨rfl, proper⟩ := digits_of_scanDigits h
    exact ⟨'.' :: fraction, rfl, fun more ends =>
      ⟨scanDigits_append proper (absent more ends), rfl⟩⟩
  case h_2 =>
    cases h
    exact ⟨[], rfl, fun more ends =>
      ⟨@scanFraction_append more [] (by simp) ends, absent more ends⟩⟩

theorem scanWhole_split {text rest whole : List Char} (h : scanWhole text = .ok (whole, rest)) :
    text = whole ++ rest ∧ Digits whole ∧ ∀ more, more.head?.all (!·.isDigit) = true →
      scanWhole (whole ++ more) = .ok (whole, more) := by
  obtain ⟨⟨digits, behind⟩, scanned, found⟩ := bind_eq_ok_iff.mp h
  obtain ⟨split, proper⟩ := digits_of_scanDigits scanned
  simp only at found
  split at found
  case isTrue => cases found
  case isFalse zero =>
    cases found
    exact ⟨split, proper, fun more ends => scanWhole_append proper (by simpa using zero) ends⟩

/-- A numeral is read alike whatever follows that does not go on with it. -/
theorem scan_split {text rest : List Char} {numeral : JsonNumeral}
    (h : scan text = .ok (numeral, rest)) :
    ∃ inner, text = inner ++ rest ∧ ∀ more, endsNumeral more = true →
      scan (inner ++ more) = .ok (numeral, more) := by
  obtain ⟨sign, split, signs⟩ := scanSign_split text
  obtain ⟨⟨whole, behindWhole⟩, scannedWhole, h⟩ := bind_eq_ok_iff.mp h
  obtain ⟨⟨fraction, behindFraction⟩, scannedFraction, h⟩ := bind_eq_ok_iff.mp h
  obtain ⟨⟨exponent, behindExponent⟩, scannedExponent, h⟩ := bind_eq_ok_iff.mp h
  cases h
  obtain ⟨row, proper, wholes⟩ := scanWhole_split scannedWhole
  replace row : (scanSign text).2 = whole ++ behindWhole := row
  obtain ⟨inner, rfl, fractions⟩ := scanFraction_split scannedFraction
  obtain ⟨inner', rfl, exponents⟩ := scanExponent_split scannedExponent
  refine ⟨sign ++ (whole ++ (inner ++ inner')), by rw [split, row]; simp, fun more ends => ?_⟩
  obtain ⟨exponent', behind⟩ := exponents more ends
  obtain ⟨fraction', behind'⟩ := fractions _ behind
  have signed := signs whole (inner ++ (inner' ++ more)) proper
  simp only [List.append_assoc] at *
  unfold scan
  rw [signed]
  exact bind_eq_ok_iff.mpr ⟨_, wholes _ behind', bind_eq_ok_iff.mpr ⟨_, fraction',
    bind_eq_ok_iff.mpr ⟨_, exponent', rfl⟩⟩⟩

end JsonNumeral

namespace Outline

/-! ## Texts that spell an outline -/

/-- Nothing but white space. -/
def Blank (text : List Char) : Prop :=
  ∀ char ∈ text, isSpace char

/-- Something with white space around it. -/
def Padded (spells : List Char → Prop) (text : List Char) : Prop :=
  ∃ before core after, text = before ++ (core ++ after) ∧ Blank before ∧ Blank after ∧ spells core

/-- Two parts with a mark between them. -/
def Joined (mark : Char) (first second : List Char → Prop) (text : List Char) : Prop :=
  ∃ left right, text = left ++ mark :: right ∧ first left ∧ second right

/-- A part between two brackets. -/
def Enclosed (opening closing : Char) (spells : List Char → Prop) (text : List Char) : Prop :=
  ∃ inner, text = opening :: (inner ++ [closing]) ∧ spells inner

/-- A string with its quotes that is decoded as given. -/
def SpellsString (value : Except JsonFault String) (text : List Char) : Prop :=
  ∃ inner, text = '"' :: inner ∧ quoted inner = (value, .ok [])

/-- A numeral that denotes what is given. -/
def SpellsNumber (value : Except JsonFault JsonNumber) (text : List Char) : Prop :=
  (∃ char rest, text = char :: rest ∧ (char = '-' ∨ char.isDigit = true)) ∧
    numeralFrom text = ⟨.number value, some []⟩

mutual

/-- The texts of an outline without faults of form. -/
def Spells : Outline → List Char → Prop
  | null, text => text = ['n', 'u', 'l', 'l']
  | bool true, text => text = ['t', 'r', 'u', 'e']
  | bool false, text => text = ['f', 'a', 'l', 's', 'e']
  | number value, text => SpellsNumber value text
  | string value, text => SpellsString value text
  | array items ending, text => ending = none ∧ Enclosed '[' ']' (SpellsItems items) text
  | object members ending, text =>
    ending = none ∧ Enclosed '\x7b' '\x7d' (SpellsMembers members) text
  | cut _ _, _ => False

/-- The texts of items with commas between them. -/
def SpellsItems : List Outline → List Char → Prop
  | [], text => Blank text
  | [item], text => Padded (Spells item) text
  | item :: items, text => Joined ',' (Padded (Spells item)) (SpellsItems items) text

/-- The texts of members with commas between them. -/
def SpellsMembers : List (Except JsonFault String × Outline) → List Char → Prop
  | [], text => Blank text
  | [(key, value)], text =>
    Joined ':' (Padded (SpellsString key)) (Padded (Spells value)) text
  | (key, value) :: members, text =>
    Joined ',' (Joined ':' (Padded (SpellsString key)) (Padded (Spells value)))
      (SpellsMembers members) text

end

theorem spellsItems_cons {item next : Outline} {items : List Outline} {text : List Char} :
    SpellsItems (item :: next :: items) text ↔
      Joined ',' (Padded (Spells item)) (SpellsItems (next :: items)) text := by
  rw [SpellsItems]
  simp

theorem spellsMembers_cons {key : Except JsonFault String} {value : Outline}
    {next : Except JsonFault String × Outline}
    {members : List (Except JsonFault String × Outline)} {text : List Char} :
    SpellsMembers ((key, value) :: next :: members) text ↔
      Joined ',' (Joined ':' (Padded (SpellsString key)) (Padded (Spells value)))
        (SpellsMembers (next :: members)) text := by
  rw [SpellsMembers]
  simp

/-! ## Spelled outlines are read -/

theorem Spells.starts {outline : Outline} {text : List Char} (h : Spells outline text) :
    ∃ char rest, text = char :: rest ∧ isSpace char = false ∧ char ≠ ']' := by
  cases outline with
  | null =>
    rw [Spells] at h
    exact ⟨_, _, h, rfl, by decide⟩
  | bool value =>
    cases value <;> rw [Spells] at h <;> exact ⟨_, _, h, rfl, by decide⟩
  | number value =>
    rw [Spells] at h
    obtain ⟨⟨char, rest, rfl, starts⟩, -⟩ := h
    refine ⟨char, rest, rfl, ?_, ?_⟩
    · rcases starts with rfl | digit
      · rfl
      · rw [Bool.eq_false_iff]
        intro space
        simp only [isSpace, Bool.or_eq_true, decide_eq_true_eq] at space
        rcases space with ((rfl | rfl) | rfl) | rfl <;> exact absurd digit (by decide)
    · rintro rfl
      exact absurd starts (by decide)
  | string value =>
    rw [Spells] at h
    obtain ⟨inner, rfl, -⟩ := h
    exact ⟨_, _, rfl, rfl, by decide⟩
  | array items ending =>
    rw [Spells] at h
    obtain ⟨-, inner, rfl, -⟩ := h
    exact ⟨_, _, rfl, rfl, by decide⟩
  | object members ending =>
    rw [Spells] at h
    obtain ⟨-, inner, rfl, -⟩ := h
    exact ⟨_, _, rfl, rfl, by decide⟩
  | cut skimming reading =>
    rw [Spells] at h
    exact h.elim

/-- Where the spelled text of an outline fits, it is read as the outline, whatever follows that
    goes on with no numeral. -/
def IsReadWithin (bound : Nat) (outline : Outline) : Prop :=
  ∀ text more : List Char, Spells outline text → text.length < bound → endsNumeral more = true →
    value bound (text ++ more) = ⟨outline, some more⟩

section Reading

variable {bound : Nat} {outline : Outline} {text more : List Char}

theorem IsReadWithin.padded (h : IsReadWithin bound outline) (padded : Padded (Spells outline) text)
    (fits : text.length < bound) (ends : endsNumeral more = true)
    (visible : skipSpace more = more) :
    ∃ closing, value bound (text ++ more) = ⟨outline, some closing⟩ ∧ skipSpace closing = more := by
  obtain ⟨before, core, after, rfl, blank, blank', spells⟩ := padded
  simp only [List.length_append] at fits
  refine ⟨after ++ more, ?_, by rw [skipSpace_append blank', visible]⟩
  rw [List.append_assoc, List.append_assoc, value_append blank]
  exact h _ _ spells (by omega) (endsNumeral_append blank' ends)

/-- A key and the mark behind it are passed, and its value is read. -/
theorem member_joined {key : Except JsonFault String} {left : List Char}
    (h : Padded (SpellsString key) left) (read : List Char → Reading Outline) (right : List Char) :
    member read (left ++ ':' :: right) = ⟨(key, (read right).part), (read right).rest⟩ := by
  obtain ⟨before, core, after, rfl, blank, blank', inner, rfl, decoded⟩ := h
  obtain ⟨inner', split, decodes⟩ := quoted_split decoded
  rw [List.append_nil] at split
  subst split
  have text : before ++ ('"' :: inner ++ after) ++ ':' :: right =
      before ++ '"' :: (inner ++ (after ++ ':' :: right)) := by simp
  rw [member, text, skipSpace_append blank, skipSpace_cons rfl]
  simp only [decodes, memberValue, skipSpace_append blank',
    skipSpace_cons (show isSpace ':' = false from rfl)]

theorem IsReadWithin.member (h : IsReadWithin bound outline) {key : Except JsonFault String}
    (joined : Joined ':' (Padded (SpellsString key)) (Padded (Spells outline)) text)
    (fits : text.length < bound) (ends : endsNumeral more = true)
    (visible : skipSpace more = more) :
    ∃ closing, Outline.member (value bound) (text ++ more) = ⟨(key, outline), some closing⟩ ∧
      skipSpace closing = more := by
  obtain ⟨left, right, rfl, name, padded⟩ := joined
  simp only [List.length_append, List.length_cons] at fits
  obtain ⟨closing, read, closes⟩ := h.padded padded (by omega) ends visible
  refine ⟨closing, ?_, closes⟩
  rw [List.append_assoc, List.cons_append, member_joined name, read]

end Reading

theorem word_append (outline : Outline) (letters more : List Char) :
    word outline letters (letters ++ more) = ⟨outline, some more⟩ := by
  induction letters with
  | nil => rfl
  | cons letter letters ih => simp [word, ih]

theorem isReadWithin_word {outline : Outline} {first : Char} {letters : List Char}
    (spelled : ∀ text, Spells outline text → text = first :: letters)
    (starts : ∀ bound rest, value (bound + 1) (first :: rest) = word outline letters rest)
    (bound : Nat) : IsReadWithin bound outline := by
  intro text more spells fits ends
  obtain ⟨bound, rfl⟩ := Nat.exists_eq_succ_of_ne_zero (Nat.ne_zero_of_lt fits)
  rw [spelled text spells, List.cons_append, starts, word_append]

theorem isReadWithin_string (decoded : Except JsonFault String) (bound : Nat) :
    IsReadWithin bound (string decoded) := by
  intro text more spells fits ends
  obtain ⟨bound, rfl⟩ := Nat.exists_eq_succ_of_ne_zero (Nat.ne_zero_of_lt fits)
  rw [Spells] at spells
  obtain ⟨inner, rfl, quotes⟩ := spells
  obtain ⟨inner', split, decodes⟩ := quoted_split quotes
  rw [List.append_nil] at split
  subst split
  rw [List.cons_append, value, skipSpace_cons rfl]
  simp only [stringFrom, decodes]

/-- A numeral is read alike whatever follows that does not go on with it. -/
theorem numeralFrom_split {text rest : List Char} {outline : Outline}
    (h : numeralFrom text = ⟨outline, some rest⟩) :
    ∃ inner, text = inner ++ rest ∧ ∀ more, endsNumeral more = true →
      numeralFrom (inner ++ more) = ⟨outline, some more⟩ := by
  unfold numeralFrom at h
  split at h
  case h_2 => cases h
  case h_1 numeral behind scanned =>
    cases h
    obtain ⟨inner, rfl, scans⟩ := JsonNumeral.scan_split scanned
    refine ⟨inner, rfl, fun more ends => ?_⟩
    rw [numeralFrom, scans more ends]

theorem isReadWithin_number (decoded : Except JsonFault JsonNumber) (bound : Nat) :
    IsReadWithin bound (number decoded) := by
  intro text more spells fits ends
  obtain ⟨bound, rfl⟩ := Nat.exists_eq_succ_of_ne_zero (Nat.ne_zero_of_lt fits)
  rw [Spells] at spells
  obtain ⟨⟨char, rest, rfl, starts⟩, numeral⟩ := spells
  obtain ⟨inner, split, reads⟩ := numeralFrom_split numeral
  rw [List.append_nil] at split
  rw [List.cons_append, value_of_numeral starts, ← List.cons_append, split, reads more ends]

/-- Items begin with a value, not with the end of their array. -/
theorem SpellsItems.starts {item : Outline} {items : List Outline} {text : List Char}
    (h : SpellsItems (item :: items) text) (more : List Char) :
    ∃ char rest, skipSpace (text ++ more) = char :: rest ∧ char ≠ ']' := by
  have padded (first behind : List Char) (h : Padded (Spells item) first) :
      ∃ char rest, skipSpace (first ++ behind) = char :: rest ∧ char ≠ ']' := by
    obtain ⟨before, core, after, rfl, blank, -, spells⟩ := h
    obtain ⟨char, rest, rfl, visible, opens⟩ := spells.starts
    refine ⟨char, rest ++ (after ++ behind), ?_, opens⟩
    rw [List.append_assoc, skipSpace_append blank, List.cons_append, List.cons_append,
      skipSpace_cons visible, List.append_assoc]
  cases items with
  | nil =>
    rw [SpellsItems] at h
    exact padded text more h
  | cons next items =>
    obtain ⟨left, right, rfl, first, -⟩ := spellsItems_cons.mp h
    rw [List.append_assoc]
    exact padded left _ first

/-- Members begin with a key. -/
theorem SpellsMembers.starts {member : Except JsonFault String × Outline}
    {members : List (Except JsonFault String × Outline)} {text : List Char}
    (h : SpellsMembers (member :: members) text) (more : List Char) :
    ∃ rest, skipSpace (text ++ more) = '"' :: rest := by
  have padded (key : Except JsonFault String) (first behind : List Char)
      (h : Padded (SpellsString key) first) :
      ∃ rest, skipSpace (first ++ behind) = '"' :: rest := by
    obtain ⟨before, core, after, rfl, blank, -, inner, rfl, -⟩ := h
    refine ⟨inner ++ after ++ behind, ?_⟩
    rw [List.append_assoc, skipSpace_append blank]
    exact skipSpace_cons rfl _
  cases members with
  | nil =>
    rw [SpellsMembers] at h
    obtain ⟨left, right, rfl, key, -⟩ := h
    rw [List.append_assoc]
    exact padded _ left _ key
  | cons next members =>
    obtain ⟨-, right, rfl, ⟨left, right', rfl, key, -⟩, -⟩ := spellsMembers_cons.mp h
    rw [List.append_assoc, List.append_assoc]
    exact padded _ left _ key

mutual

/-- The text of an outline is read as the outline. -/
theorem isReadWithin : (outline : Outline) → (bound : Nat) → IsReadWithin bound outline
  | null => isReadWithin_word (fun _ h => by rwa [Spells] at h) (fun _ _ => rfl)
  | bool true => isReadWithin_word (fun _ h => by rwa [Spells] at h) (fun _ _ => rfl)
  | bool false => isReadWithin_word (fun _ h => by rwa [Spells] at h) (fun _ _ => rfl)
  | number decoded => isReadWithin_number decoded
  | string decoded => isReadWithin_string decoded
  | array items ending => by
    intro bound text more spells fits ends
    obtain ⟨bound, rfl⟩ := Nat.exists_eq_succ_of_ne_zero (Nat.ne_zero_of_lt fits)
    rw [Spells] at spells
    obtain ⟨rfl, inner, rfl, row⟩ := spells
    have text : '[' :: (inner ++ [']']) ++ more = '[' :: (inner ++ ']' :: more) := by simp
    simp only [List.length_cons, List.length_append] at fits
    rw [text, value, skipSpace_cons rfl]
    cases items with
    | nil =>
      rw [SpellsItems] at row
      simp only [arrayFrom, skipSpace_append row,
        skipSpace_cons (show isSpace ']' = false from rfl)]
    | cons item items =>
      obtain ⟨char, tail, skipped, opens⟩ := row.starts (']' :: more)
      exact arrayFrom_items skipped opens
        (itemsFrom_spelled (item :: items) bound bound (by simp) _ _ row (by omega) (by omega))
  | object members ending => by
    intro bound text more spells fits ends
    obtain ⟨bound, rfl⟩ := Nat.exists_eq_succ_of_ne_zero (Nat.ne_zero_of_lt fits)
    rw [Spells] at spells
    obtain ⟨rfl, inner, rfl, row⟩ := spells
    have text : '\x7b' :: (inner ++ ['\x7d']) ++ more =
        '\x7b' :: (inner ++ '\x7d' :: more) := by simp
    simp only [List.length_cons, List.length_append] at fits
    rw [text, value, skipSpace_cons rfl]
    cases members with
    | nil =>
      rw [SpellsMembers] at row
      simp only [objectFrom, skipSpace_append row,
        skipSpace_cons (show isSpace '\x7d' = false from rfl)]
    | cons member members =>
      obtain ⟨tail, skipped⟩ := row.starts ('\x7d' :: more)
      exact objectFrom_members skipped (by decide)
        (membersFrom_spelled (member :: members) bound bound (by simp) _ _ row (by omega)
          (by omega))
  | cut skimming reading => by
    intro bound text more spells
    rw [Spells] at spells
    exact spells.elim

theorem itemsFrom_spelled : (items : List Outline) → (bound rounds : Nat) → items ≠ [] →
    (text more : List Char) → SpellsItems items text → text.length < bound →
    text.length < rounds →
    itemsFrom (value bound) rounds (text ++ ']' :: more) = ⟨(items, none), some more⟩
  | [], _, _, nonempty, _, _, _, _, _ => absurd rfl nonempty
  | [item], bound, rounds, _, text, more, spells, fits, enough => by
    obtain ⟨rounds, rfl⟩ := Nat.exists_eq_succ_of_ne_zero (Nat.ne_zero_of_lt enough)
    rw [SpellsItems] at spells
    obtain ⟨closing, read, closes⟩ := (isReadWithin item bound).padded spells fits rfl
      (skipSpace_cons (show isSpace ']' = false from rfl) more)
    exact itemsFrom_close read closes
  | item :: next :: items, bound, rounds, _, text, more, spells, fits, enough => by
    obtain ⟨rounds, rfl⟩ := Nat.exists_eq_succ_of_ne_zero (Nat.ne_zero_of_lt enough)
    obtain ⟨left, right, rfl, padded, row⟩ := spellsItems_cons.mp spells
    simp only [List.length_append, List.length_cons] at fits enough
    obtain ⟨closing, read, comma⟩ := (isReadWithin item bound).padded padded (by omega) rfl
      (skipSpace_cons (show isSpace ',' = false from rfl) (right ++ ']' :: more))
    rw [List.append_assoc, List.cons_append]
    exact itemsFrom_comma read comma
      (itemsFrom_spelled (next :: items) bound rounds (by simp) _ _ row (by omega) (by omega))

theorem membersFrom_spelled : (members : List (Except JsonFault String × Outline)) →
    (bound rounds : Nat) → members ≠ [] → (text more : List Char) → SpellsMembers members text →
    text.length < bound → text.length < rounds →
    membersFrom (value bound) rounds (text ++ '\x7d' :: more) = ⟨(members, none), some more⟩
  | [], _, _, nonempty, _, _, _, _, _ => absurd rfl nonempty
  | [(key, outline)], bound, rounds, _, text, more, spells, fits, enough => by
    obtain ⟨rounds, rfl⟩ := Nat.exists_eq_succ_of_ne_zero (Nat.ne_zero_of_lt enough)
    rw [SpellsMembers] at spells
    obtain ⟨closing, read, closes⟩ := (isReadWithin outline bound).member spells fits rfl
      (skipSpace_cons (show isSpace '\x7d' = false from rfl) more)
    exact membersFrom_close read closes
  | (key, outline) :: next :: members, bound, rounds, _, text, more, spells, fits, enough => by
    obtain ⟨rounds, rfl⟩ := Nat.exists_eq_succ_of_ne_zero (Nat.ne_zero_of_lt enough)
    obtain ⟨left, right, rfl, joined, row⟩ := spellsMembers_cons.mp spells
    simp only [List.length_append, List.length_cons] at fits enough
    obtain ⟨closing, read, comma⟩ := (isReadWithin outline bound).member joined (by omega) rfl
      (skipSpace_cons (show isSpace ',' = false from rfl) (right ++ '\x7d' :: more))
    rw [List.append_assoc, List.cons_append]
    exact membersFrom_comma read comma
      (membersFrom_spelled (next :: members) bound rounds (by simp) _ _ row (by omega) (by omega))

end

end Outline

end TinyScript
