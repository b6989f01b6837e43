import TinyScript.Proofs.JsonText
import TinyScript.Proofs.JsonTrees
import TinyScript.Proofs.KeptNumbers
import TinyScript.Proofs.PrintRoundTrip

/-!
# Programs and their JSON text

The JSON text of a program is read as the program with each number written and read again, unless
the text is nested deeper than the reader goes. This holds of every tree. A tree that is read from a
source text has whole numbers only, so it is restored exactly if it is not nested too deeply and
each of its numbers is kept.
-/

namespace TinyScript

/-! ## Trees with their numbers read again -/

/-- The number that a number becomes when it is written as JSON and read again; nothing beyond the
    finite numbers. -/
def Binary64.reread (x : Binary64) : Option Binary64 :=
  (JsonNumber.real x).reread.bind JsonNumber.toBinary64?

/-- A number that is written with a point or an exponent is read as such a number. -/
theorem Binary64.reread_real (x : Binary64) :
    (JsonNumber.real x).reread = x.reread.map .real := by
  obtain ⟨value, read⟩ := JsonNumeral.exists_value? (Decimal.jsonNumeral_isWhole
    (x.shortest .even) x.negative)
  have numeral : (JsonNumber.real x).reread = value.map .real := read
  rw [reread, numeral]
  cases value <;> rfl

/-- An expression with each number written as JSON and read again. -/
def Expression.reread : Expression → Option Expression
  | .binary operator left right => return .binary operator (← left.reread) (← right.reread)
  | .identifier name => some (.identifier name)
  | .number value => value.reread.map .number
  | .string value => some (.string value)

theorem Expression.reread_toJson (expression : Expression) :
    expression.toJson.reread = expression.reread.map toJson := by
  induction expression with
  | binary operator left right left_ih right_ih =>
    simp only [toJson, Json.reread, Json.rereadMembers, reread, left_ih, right_ih]
    cases left.reread <;> cases right.reread <;> rfl
  | identifier name => simp [toJson, Json.reread, Json.rereadMembers, reread]
  | number value =>
    simp only [toJson, Json.reread, Json.rereadMembers, reread, Binary64.reread_real]
    cases value.reread <;> rfl
  | string value => simp [toJson, Json.reread, Json.rereadMembers, reread]

mutual

/-- A statement with each number written as JSON and read again. -/
def Statement.reread : Statement → Option Statement
  | .variableDeclaration name typeName value =>
    return .variableDeclaration name typeName (← value.reread)
  | .functionDeclaration name parameters returnType body =>
    return .functionDeclaration name parameters returnType (← rereadAll body)
  | .returnStatement none => some (.returnStatement none)
  | .returnStatement (some argument) => return .returnStatement (some (← argument.reread))

/-- Statements with each number written as JSON and read again. -/
def Statement.rereadAll : List Statement → Option (List Statement)
  | [] => some []
  | statement :: body => return (← statement.reread) :: (← rereadAll body)

end

/-- A program with each number written as JSON and read again. -/
def Program.reread (program : Program) : Option Program :=
  (Statement.rereadAll program.body).map Program.mk

theorem Parameter.rereadItems_toJson (parameters : List Parameter) :
    Json.rereadItems (parameters.map toJson) = some (parameters.map toJson) := by
  induction parameters with
  | nil => simp [Json.rereadItems]
  | cons parameter parameters ih =>
    simp [Json.rereadItems, ih, toJson, Json.reread, Json.rereadMembers]

namespace Statement

/-- Reading numbers again does not change the form of a statement. -/
theorem kind_of_reread {statement read : Statement} (h : statement.reread = some read) :
    read.kind = statement.kind ∧ read.kindName = statement.kindName := by
  cases statement with
  | variableDeclaration name typeName value =>
    obtain ⟨value, _, rfl⟩ := Option.map_eq_some_iff.mp ((Option.map_eq_bind ..).trans h)
    exact ⟨rfl, rfl⟩
  | functionDeclaration name parameters returnType body =>
    rw [reread] at h
    obtain ⟨body, _, rfl⟩ := Option.map_eq_some_iff.mp ((Option.map_eq_bind ..).trans h)
    exact ⟨rfl, rfl⟩
  | returnStatement argument =>
    cases argument with
    | none =>
      rw [reread] at h
      cases h
      exact ⟨rfl, rfl⟩
    | some argument =>
      rw [reread] at h
      obtain ⟨argument, _, rfl⟩ := Option.map_eq_some_iff.mp ((Option.map_eq_bind ..).trans h)
      exact ⟨rfl, rfl⟩

theorem reread_toJson_of_fields {statement : Statement}
    (h : Json.rereadMembers statement.fields = statement.reread.map fields) :
    statement.toJson.reread = statement.reread.map toJson := by
  have name : (Json.string statement.kindName).reread = some (.string statement.kindName) := by
    simp [Json.reread]
  rw [toJson_eq, Json.reread, Json.rereadMembers, name, h]
  cases again : statement.reread with
  | none => rfl
  | some read =>
    rw [Option.map_some, Option.map_some, toJson_eq read, (kind_of_reread again).2]
    rfl

mutual

theorem rereadMembers_fields : (statement : Statement) →
    Json.rereadMembers statement.fields = statement.reread.map fields
  | variableDeclaration name typeName value => by
    simp only [fields, Json.rereadMembers, Json.reread, reread, value.reread_toJson]
    cases value.reread <;> rfl
  | functionDeclaration name parameters returnType body => by
    simp only [fields, Json.rereadMembers, Json.reread, reread, rereadItems_allToJson body,
      Parameter.rereadItems_toJson]
    cases rereadAll body <;> rfl
  | returnStatement none => by
    simp [fields, Json.rereadMembers, Json.reread, reread]
  | returnStatement (some argument) => by
    simp only [fields, Json.rereadMembers, reread, Option.elim_some, argument.reread_toJson]
    cases argument.reread <;> rfl

theorem rereadItems_allToJson : (body : List Statement) →
    Json.rereadItems (allToJson body) = (rereadAll body).map allToJson
  | [] => by simp [allToJson, Json.rereadItems, rereadAll]
  | statement :: body => by
    have first := reread_toJson_of_fields (rereadMembers_fields statement)
    simp only [allToJson, Json.rereadItems, rereadAll, first, rereadItems_allToJson body]
    cases statement.reread with
    | none => rfl
    | some statement =>
      cases rereadAll body with
      | none => rfl
      | some body => simp [allToJson]

end

end Statement

/-! ## Statements from outlines -/

namespace Variants

variable {κ : Type} {variants : Variants κ} {members : List (String × Json)}

theorem splitOutline_of_free (levels : Nat) (kind : Option κ) (free : FreeOfType members) :
    variants.splitOutline levels kind (Json.outlineMembers members) =
      ((Outline.readMembers levels (Json.outlineMembers members)).map fun read =>
        (kind, read)).mapError .fault := by
  induction members with
  | nil =>
    simp [Json.outlineMembers, splitOutline, Outline.readMembers, Except.map, Except.mapError]
  | cons member members ih =>
    obtain ⟨key, value⟩ := member
    have other : key ≠ "type" := free (key, value) (by simp)
    have rest := ih fun member inside => free member (List.mem_cons_of_mem _ inside)
    rw [Json.outlineMembers, splitOutline, Outline.readMembers]
    simp only [Except.mapError, bind, Except.bind, if_neg other]
    cases value.outline.read levels with
    | error fault => rfl
    | ok value =>
      dsimp only
      rw [rest]
      cases Outline.readMembers levels (Json.outlineMembers members) <;> rfl

theorem outline_variant_object (name record : String) (kind : κ) (levels : Nat)
    (named : variants.named name = .ok kind) (free : FreeOfType members) :
    (Json.object (("type", .string name) :: members)).outline.variant variants record levels =
      ((Outline.readMembers levels (Json.outlineMembers members)).map fun read =>
        (kind, .members read)).mapError .fault := by
  have split : variants.splitOutline levels none
      (Json.outlineMembers (("type", .string name) :: members)) =
      ((Outline.readMembers levels (Json.outlineMembers members)).map fun read =>
        (some kind, read)).mapError .fault := by
    rw [Json.outlineMembers, Json.outline, splitOutline]
    simp only [Except.mapError, bind, Except.bind, if_pos, ofOutline, named]
    exact splitOutline_of_free levels (some kind) free
  rw [Json.outline, Outline.variant, split]
  cases Outline.readMembers levels (Json.outlineMembers members) <;> rfl

end Variants

namespace Statement

theorem ofOutline_outline (statement : Statement) (levels : Nat) :
    ofOutline (levels + 1) statement.toJson.outline =
      Json.orError (.fault .malformed) (statement.toJson.depth ≤ levels + 1) statement.reread := by
  have depth : decide (statement.toJson.depth ≤ levels + 1) =
      decide (Json.depthOfMembers statement.fields ≤ levels) := by
    rw [depth_toJson, decide_eq_decide]
    exact Nat.add_le_add_iff_right
  rw [depth, ofOutline, toJson_eq, Variants.outline_variant_object _ _ _ _
    statement.named_kindName statement.fields_free, Nat.add_sub_cancel, Json.readMembers_outline,
    rereadMembers_fields]
  cases decide (Json.depthOfMembers statement.fields ≤ levels) with
  | false => rfl
  | true =>
    cases again : statement.reread with
    | none => rfl
    | some read =>
      have fields := read.ofFields_fields (listOfJson_allToJson read.inner)
      rw [(kind_of_reread again).1] at fields
      change (ofFields (listOfJson ofJson) (.members read.fields) statement.kind).mapError _ = _
      rw [fields]
      rfl

theorem mapM_ofOutline (levels : Nat) (body : List Statement) :
    (Json.outlineItems (allToJson body)).mapM (ofOutline (levels + 1)) =
      Json.orError (.fault .malformed) (Json.depthOfItems (allToJson body) ≤ levels + 1)
        (rereadAll body) := by
  induction body with
  | nil =>
    simp only [allToJson, Json.outlineItems, Json.depthOfItems, rereadAll]
    rfl
  | cons statement body ih =>
    rw [allToJson, Json.outlineItems, List.mapM_cons, ofOutline_outline, ih, Json.depthOfItems,
      rereadAll]
    simp only [Nat.max_le, Bool.decide_and]
    exact Json.orError_bind _ _ _ _ _ _

theorem listOfOutline_outline (levels : Nat) (body : List Statement) :
    listOfOutline (levels + 2) (.array (Json.outlineItems (allToJson body)) none) =
      Json.orError (.fault .malformed) (Json.depthOfItems (allToJson body) ≤ levels + 1)
        (rereadAll body) := by
  rw [listOfOutline, show levels + 2 - 1 = levels + 1 by omega, mapM_ofOutline]
  cases decide (Json.depthOfItems (allToJson body) ≤ levels + 1) with
  | false => rfl
  | true => cases rereadAll body <;> rfl

end Statement

/-! ## Programs -/

namespace Program

theorem ofOutline_outline (program : Program) (levels : Nat) :
    ofOutline (levels + 3) program.toJson.outline =
      Json.orError (.fault .malformed) (program.toJson.depth ≤ levels + 3) program.reread := by
  have depth : decide (program.toJson.depth ≤ levels + 3) =
      decide (Json.depthOfItems (Statement.allToJson program.body) ≤ levels + 1) := by
    simp only [toJson, Json.depth, Json.depthOfMembers, decide_eq_decide]
    omega
  have statements := Statement.listOfOutline_outline levels program.body
  have member : bodyMember (levels + 2) none
      (.ok "body", .array (Json.outlineItems (Statement.allToJson program.body)) none) =
      some <$> Statement.listOfOutline (levels + 2)
        (.array (Json.outlineItems (Statement.allToJson program.body)) none) := rfl
  rw [depth, toJson, Json.outline, Json.outlineMembers, Json.outline, Json.outlineMembers,
    ofOutline, List.foldlM_cons, show levels + 3 - 1 = levels + 2 by omega, member, statements,
    reread]
  cases decide (Json.depthOfItems (Statement.allToJson program.body) ≤ levels + 1) with
  | false => rfl
  | true => cases Statement.rereadAll program.body <;> rfl

/-- What the JSON text of a program is read as: the program with each number written and read again,
    unless arrays and objects are nested more than 127 levels deep in it. -/
theorem ofJsonText_toJsonText (program : Program) :
    ofJsonText program.toJsonText =
      Json.orError (.fault .malformed) (program.toJson.depth ≤ 127) program.reread := by
  have outline := Json.ofText_render Json.Layout.pretty_blank program.toJson
  have read := ofOutline_outline program 124
  rw [ofJsonText, TinyScript.ofJsonText, toJsonText, Json.pretty, outline]
  dsimp only
  rw [show Outline.nestingLimit = 124 + 3 from rfl, read]
  cases decide (program.toJson.depth ≤ 124 + 3) with
  | false => rfl
  | true => cases program.reread <;> rfl

end Program

/-! ## Programs that are restored -/

/-- The numbers in an expression from left to right. -/
def Expression.numbers : Expression → List Binary64
  | .binary _ left right => left.numbers ++ right.numbers
  | .number value => [value]
  | .identifier _ | .string _ => []

mutual

/-- The numbers in a statement from left to right. -/
def Statement.numbers : Statement → List Binary64
  | .variableDeclaration _ _ value => value.numbers
  | .functionDeclaration _ _ _ body => allNumbers body
  | .returnStatement none => []
  | .returnStatement (some argument) => argument.numbers

/-- The numbers in a row of statements. -/
def Statement.allNumbers : List Statement → List Binary64
  | [] => []
  | statement :: body => statement.numbers ++ allNumbers body

end

/-- The numbers in a program from first to last. -/
def Program.numbers (program : Program) : List Binary64 :=
  Statement.allNumbers program.body

theorem Binary64.reread_eq_rescaled {x : Binary64} (whole : x.isIntegral = true) :
    x.reread = x.rescaled := by
  have real := reread_of_isIntegral whole
  rw [reread_real] at real
  exact Option.map_injective (fun _ _ => JsonNumber.real.inj) real

theorem Expression.reread_eq_self_iff (expression : Expression) :
    expression.reread = some expression ↔ ∀ x ∈ expression.numbers, x.reread = some x := by
  induction expression with
  | binary operator left right left_ih right_ih =>
    rw [numbers, List.forall_mem_append, ← left_ih, ← right_ih, reread]
    cases left.reread <;> cases right.reread <;> simp
  | identifier name => simp [reread, numbers]
  | number value => simp [reread, numbers]
  | string value => simp [reread, numbers]

mutual

theorem Statement.reread_eq_self_iff : (statement : Statement) →
    (statement.reread = some statement ↔ ∀ x ∈ statement.numbers, x.reread = some x)
  | .variableDeclaration name typeName value => by
    rw [numbers, ← value.reread_eq_self_iff, reread]
    cases value.reread <;> simp
  | .functionDeclaration name parameters returnType body => by
    rw [numbers, ← rereadAll_eq_self_iff body, reread]
    cases rereadAll body <;> simp
  | .returnStatement none => by simp [reread, numbers]
  | .returnStatement (some argument) => by
    rw [numbers, ← argument.reread_eq_self_iff, reread]
    cases argument.reread <;> simp

theorem Statement.rereadAll_eq_self_iff : (body : List Statement) →
    (rereadAll body = some body ↔ ∀ x ∈ allNumbers body, x.reread = some x)
  | [] => by simp [rereadAll, allNumbers]
  | statement :: body => by
    rw [allNumbers, List.forall_mem_append, ← reread_eq_self_iff statement,
      ← rereadAll_eq_self_iff body, rereadAll]
    cases statement.reread <;> cases rereadAll body <;> simp

end

theorem Expression.isIntegral_of_mem_numbers {expression : Expression}
    (wellFormed : expression.isWellFormed = true) : ∀ x ∈ expression.numbers,
    x.isIntegral = true := by
  induction expression with
  | binary operator left right left_ih right_ih =>
    simp only [isWellFormed, Bool.and_eq_true] at wellFormed
    rw [numbers, List.forall_mem_append]
    exact ⟨left_ih wellFormed.1, right_ih wellFormed.2⟩
  | number value =>
    simp only [isWellFormed, Bool.and_eq_true] at wellFormed
    simpa only [numbers, List.forall_mem_singleton] using wellFormed.2
  | identifier name => simp [numbers]
  | string value => simp [numbers]

mutual

theorem Statement.isIntegral_of_mem_numbers : (statement : Statement) →
    statement.isWellFormed = true → ∀ x ∈ statement.numbers, x.isIntegral = true
  | .variableDeclaration name typeName value, wellFormed => by
    simp only [isWellFormed, Bool.and_eq_true] at wellFormed
    rw [numbers]
    exact Expression.isIntegral_of_mem_numbers wellFormed.2
  | .functionDeclaration name parameters returnType body, wellFormed => by
    simp only [isWellFormed, Bool.and_eq_true] at wellFormed
    rw [numbers]
    exact isIntegral_of_mem_allNumbers body wellFormed.2
  | .returnStatement none, _ => by simp [numbers]
  | .returnStatement (some argument), wellFormed => by
    rw [numbers]
    exact Expression.isIntegral_of_mem_numbers wellFormed

theorem Statement.isIntegral_of_mem_allNumbers : (body : List Statement) →
    allWellFormed body = true → ∀ x ∈ allNumbers body, x.isIntegral = true
  | [], _ => by simp [allNumbers]
  | statement :: body, wellFormed => by
    simp only [allWellFormed, Bool.and_eq_true] at wellFormed
    rw [allNumbers, List.forall_mem_append]
    exact ⟨isIntegral_of_mem_numbers statement wellFormed.1,
      isIntegral_of_mem_allNumbers body wellFormed.2⟩

end

namespace Expression

/-- A name added to itself a number of times. -/
def multiple (name : String) : Nat → Expression
  | 0 => .identifier name
  | times + 1 => .binary .add (multiple name times) (.identifier name)

theorem multiple_isWellFormed {name : String} (h : isName name = true) (times : Nat) :
    (multiple name times).isWellFormed = true := by
  induction times with
  | zero => exact h
  | succ times ih => simp [multiple, isWellFormed, ih, h]

theorem depth_multiple (name : String) (times : Nat) :
    (multiple name times).toJson.depth = times + 1 := by
  induction times with
  | zero => simp [multiple, toJson, Json.depth, Json.depthOfMembers]
  | succ times ih => simp [multiple, toJson, Json.depth, Json.depthOfMembers, ih]

theorem numbers_multiple (name : String) (times : Nat) : (multiple name times).numbers = [] := by
  induction times with
  | zero => rfl
  | succ times ih => simp [multiple, numbers, ih]

end Expression

namespace Program

theorem reread_eq_self_iff (program : Program) :
    program.reread = some program ↔ ∀ x ∈ program.numbers, x.reread = some x := by
  obtain ⟨body⟩ := program
  rw [numbers, ← Statement.rereadAll_eq_self_iff, reread]
  cases Statement.rereadAll body <;> simp

/-- A program with whole numbers is reread as itself if each number is kept. -/
theorem reread_eq_self_iff_kept {program : Program} (wellFormed : program.isWellFormed = true) :
    program.reread = some program ↔ ∀ x ∈ program.numbers, x.kept = true := by
  rw [reread_eq_self_iff]
  apply forall₂_congr
  intro x inside
  have whole := Statement.isIntegral_of_mem_allNumbers program.body wellFormed x inside
  rw [Binary64.reread_eq_rescaled whole, Binary64.rescaled_eq_self_iff_kept whole]

/-- The declaration of a number. -/
def declaring (value : Expression) : Program :=
  ⟨[.variableDeclaration "x" "number" value]⟩

theorem parse_print_declaring {value : Expression} (wellFormed : value.isWellFormed = true) :
    parse (declaring value).print = .ok (declaring value) := by
  apply parse_print
  simp only [isWellFormed, declaring, Statement.allWellFormed, Statement.isWellFormed, wellFormed,
    Bool.and_true]
  decide

theorem depth_declaring (value : Expression) :
    (declaring value).toJson.depth = value.toJson.depth + 3 := by
  simp [declaring, toJson, Statement.allToJson, Statement.toJson, Json.depth, Json.depthOfMembers,
    Json.depthOfItems]

theorem numbers_declaring (value : Expression) : (declaring value).numbers = value.numbers := by
  simp [declaring, numbers, Statement.allNumbers, Statement.numbers]

/-- The JSON text of a program that is read from a source text restores the program exactly if
    arrays and objects are nested at most 127 levels deep in it and each number is kept. -/
theorem ofJsonText_toJsonText_eq_ok_iff {source : String} {program : Program}
    (parsed : Program.parse source = .ok program) :
    ofJsonText program.toJsonText = .ok program ↔
      program.toJson.depth ≤ 127 ∧ ∀ x ∈ program.numbers, x.kept = true := by
  rw [ofJsonText_toJsonText, ← reread_eq_self_iff_kept (isWellFormed_of_parse parsed)]
  by_cases shallow : program.toJson.depth ≤ 127
  · cases program.reread <;> simp [shallow, Json.orError]
  · simp [shallow, Json.orError]

/-- A sum of 124 names is restored and one of 125 is not, and neither is the greatest whole number
    below `2 ^ 53`. -/
theorem ofJsonText_toJsonText_eq_ok_iff_declaring :
    (parse (declaring (.multiple "a" 123)).print = .ok (declaring (.multiple "a" 123)) ∧
      ofJsonText (declaring (.multiple "a" 123)).toJsonText = .ok (declaring (.multiple "a" 123))) ∧
    (parse (declaring (.multiple "a" 124)).print = .ok (declaring (.multiple "a" 124)) ∧
      ofJsonText (declaring (.multiple "a" 124)).toJsonText ≠ .ok (declaring (.multiple "a" 124))) ∧
    ∃ x, Binary64.ofDigits? "9007199254740991".toList = some x ∧
      parse (declaring (.number x)).print = .ok (declaring (.number x)) ∧
      ofJsonText (declaring (.number x)).toJsonText ≠ .ok (declaring (.number x)) := by
  have sum (times : Nat) := parse_print_declaring
    (Expression.multiple_isWellFormed (by decide : isName "a" = true) times)
  obtain ⟨x, read, -, units⟩ :=
    Binary64.exists_ofNat?_of_lt (by decide : 9007199254740991 < 2 ^ 53)
  have digits : Binary64.ofDigits? "9007199254740991".toList = some x := read
  have number : parse (declaring (.number x)).print = .ok (declaring (.number x)) := by
    apply parse_print_declaring
    simp [Expression.isWellFormed, Binary64.isIntegral_of_ofDigits? digits]
  have lost : x.kept = false := by
    rw [Binary64.kept_of_units units (by decide)]
    decide
  refine ⟨⟨sum 123, ?_⟩, ⟨sum 124, ?_⟩, x, digits, number, ?_⟩
  · rw [ofJsonText_toJsonText_eq_ok_iff (sum 123), depth_declaring, Expression.depth_multiple,
      numbers_declaring, Expression.numbers_multiple]
    simp
  · rw [ne_eq, ofJsonText_toJsonText_eq_ok_iff (sum 124), depth_declaring,
      Expression.depth_multiple]
    simp
  · rw [ne_eq, ofJsonText_toJsonText_eq_ok_iff number, numbers_declaring, Expression.numbers,
      List.forall_mem_singleton, lost]
    simp

end Program

end TinyScript
