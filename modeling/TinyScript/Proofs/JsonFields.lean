import Mathlib
import TinyScript.Program.OfJson
import TinyScript.Proofs.JsonSpelling

/-!
# Records are read alike in any order

The fields of a record are put in their places as they come, each at most once. So the order of
the members does not matter, and neither do members that are no fields. A record is read alike
from another one in the same form if the values of its fields are read alike.
-/

namespace TinyScript

/-! ## Reading members one by one -/

section Folds

variable {ε σ μ : Type} {step step' : σ → μ → Except ε σ}

/-- What two members leave behind does not depend on which of them is read first. -/
def Commutes (step : σ → μ → Except ε σ) : Prop :=
  ∀ state first second next last, step state first = .ok next → step next second = .ok last →
    ∃ other, step state second = .ok other ∧ step other first = .ok last

theorem foldlM_cons_eq_ok {state last : σ} {member : μ} {members : List μ} :
    (member :: members).foldlM step state = .ok last ↔
      ∃ next, step state member = .ok next ∧ members.foldlM step next = .ok last := by
  rw [List.foldlM_cons, bind_eq_ok_iff]

theorem foldlM_perm (commutes : Commutes step) {members members' : List μ}
    (perm : members.Perm members') {state last : σ} (h : members.foldlM step state = .ok last) :
    members'.foldlM step state = .ok last := by
  induction perm generalizing state with
  | nil => exact h
  | cons member _ ih =>
    obtain ⟨next, read, rest⟩ := foldlM_cons_eq_ok.mp h
    exact foldlM_cons_eq_ok.mpr ⟨next, read, ih rest⟩
  | swap first second members =>
    obtain ⟨next, read, h⟩ := foldlM_cons_eq_ok.mp h
    obtain ⟨next', read', rest⟩ := foldlM_cons_eq_ok.mp h
    obtain ⟨other, read'', back⟩ := commutes _ _ _ _ _ read read'
    exact foldlM_cons_eq_ok.mpr ⟨other, read'', foldlM_cons_eq_ok.mpr ⟨next', back, rest⟩⟩
  | trans _ _ ih ih' => exact ih' (ih h)

theorem foldlM_forall₂ {members members' : List μ}
    (alike : List.Forall₂
      (fun member member' => ∀ state next, step state member = .ok next →
        step' state member' = .ok next) members members')
    {state last : σ} (h : members.foldlM step state = .ok last) :
    members'.foldlM step' state = .ok last := by
  induction alike generalizing state with
  | nil => exact h
  | cons alike _ ih =>
    obtain ⟨next, read, rest⟩ := foldlM_cons_eq_ok.mp h
    exact foldlM_cons_eq_ok.mpr ⟨next, alike state next read, ih rest⟩

theorem foldlM_ignored {members : List μ} (ignored : ∀ member ∈ members, ∀ state,
    step state member = .ok state) (state : σ) : members.foldlM step state = .ok state := by
  induction members with
  | nil => rfl
  | cons member members ih =>
    obtain ⟨first, others⟩ := List.forall_mem_cons.mp ignored
    exact foldlM_cons_eq_ok.mpr ⟨state, first state, ih others⟩

/-- Members may be changed into ones that are read alike, stand in another order and have others
    between them that are passed over. -/
theorem foldlM_rearranged (commutes : Commutes step') {members changed added members' : List μ}
    (alike : List.Forall₂
      (fun member member' => ∀ state next, step state member = .ok next →
        step' state member' = .ok next) members changed)
    (ignored : ∀ member ∈ added, ∀ state, step' state member = .ok state)
    (perm : members'.Perm (changed ++ added)) {state last : σ}
    (h : members.foldlM step state = .ok last) : members'.foldlM step' state = .ok last := by
  apply foldlM_perm commutes perm.symm
  rw [List.foldlM_append]
  exact bind_eq_ok_iff.mpr ⟨last, foldlM_forall₂ alike h, foldlM_ignored ignored last⟩

end Folds

/-! ## Alike values -/

/-- A reader finds in a value what another finds in a value like it. -/
def Carries {α : Type} (alike : Json → Json → Prop) (read read' : Json → Except Mismatch α) :
    Prop :=
  ∀ json json' value, alike json json' → read json = .ok value → read' json' = .ok value

/-- Members whose values are alike, in another order, with members between them that are no fields.
    Which values are alike depends on the key. -/
def MembersAlike (alike : String → Json → Json → Prop) (fields : List String)
    (members members' : List (String × Json)) : Prop :=
  ∃ changed added,
    List.Forall₂ (fun member member' => member'.1 = member.1 ∧ alike member.1 member.2 member'.2)
      members changed ∧
    (∀ member ∈ added, member.1 ∉ fields) ∧ members'.Perm (changed ++ added)

/-- Items that are alike as the fields in whose places they stand. -/
def ItemsAlike (alike : String → Json → Json → Prop) :
    List String → List Json → List Json → Prop
  | _, [], items' => items' = []
  | [], _ :: _, _ => True
  | field :: fields, item :: items, items' =>
    ∃ item' rest', items' = item' :: rest' ∧ alike field item item' ∧
      ItemsAlike alike fields items rest'

/-- The same record in the same form, with values that are alike. -/
inductive FieldsAlike (alike : String → Json → Json → Prop) (fields : List String) :
    Fields → Fields → Prop
  | members {members members' : List (String × Json)}
      (same : MembersAlike alike fields members members') :
      FieldsAlike alike fields (.members members) (.members members')
  | items {items items' : List Json} (same : ItemsAlike alike fields items items') :
      FieldsAlike alike fields (.items items) (.items items')

theorem MembersAlike.foldlM {σ : Type} {alike : String → Json → Json → Prop} {fields : List String}
    {members members' : List (String × Json)} (h : MembersAlike alike fields members members')
    {step step' : σ → String × Json → Except Mismatch σ} (commutes : Commutes step')
    (carries : ∀ state next key json json', alike key json json' →
      step state (key, json) = .ok next → step' state (key, json') = .ok next)
    (ignores : ∀ state key json, key ∉ fields → step' state (key, json) = .ok state)
    {state last : σ} (read : members.foldlM step state = .ok last) :
    members'.foldlM step' state = .ok last := by
  obtain ⟨changed, added, same, unknown, perm⟩ := h
  refine foldlM_rearranged commutes (same.imp ?_) (fun member among state => ?_) perm read
  · rintro ⟨key, json⟩ ⟨_, json'⟩ ⟨rfl, like⟩ state next found
    exact carries state next _ json json' like found
  · exact ignores state member.1 member.2 (unknown member among)

/-! ## Fields in objects -/

/-- A field is put in its place, which has to be empty. -/
theorem map_once_eq_ok_iff {α σ : Type} {field : String} {given : Option α}
    {value : Except Mismatch α} {put : Option α → σ} {next : σ} :
    put <$> once field given value = .ok next ↔
      given = none ∧ ∃ found, value = .ok found ∧ next = put (some found) := by
  cases given with
  | some found => simp [once, Functor.map, Except.map]
  | none =>
    cases value with
    | error mismatch => simp [once, Functor.map, Except.map]
    | ok found => simp [once, Functor.map, Except.map, eq_comm]

theorem once_eq_ok_iff {α : Type} {field : String} {given next : Option α}
    {value : Except Mismatch α} :
    once field given value = .ok next ↔
      given = none ∧ ∃ found, value = .ok found ∧ next = some found := by
  simpa using @map_once_eq_ok_iff α (Option α) field given value id next

theorem required_eq_ok_iff {α : Type} {field : String} {given : Option α} {value : α} :
    required field given = .ok value ↔ given = some value := by
  cases given <;> simp [required]

/-- Reads a member if it is the given field. -/
def takeField {α : Type} (field : String) (read : Json → Except Mismatch α) (given : Option α) :
    String × Json → Except Mismatch (Option α)
  | (key, json) => if key = field then once field given (read json) else .ok given

theorem takeField_eq_ok_iff {α : Type} {field key : String} {read : Json → Except Mismatch α}
    {given next : Option α} {json : Json} :
    takeField field read given (key, json) = .ok next ↔
      (key = field ∧ given = none ∧ ∃ found, read json = .ok found ∧ next = some found) ∨
      (key ≠ field ∧ next = given) := by
  rw [takeField]
  by_cases same : key = field
  · simp [same, once_eq_ok_iff]
  · simp [same, eq_comm]

theorem takeField_commutes {α : Type} (field : String) (read : Json → Except Mismatch α) :
    Commutes (takeField field read) := by
  rintro given ⟨key, json⟩ ⟨key', json'⟩ next last first second
  rw [takeField_eq_ok_iff] at first second
  simp only [takeField_eq_ok_iff]
  rcases first with ⟨rfl, rfl, found, read, rfl⟩ | ⟨other, rfl⟩ <;>
    rcases second with ⟨rfl, empty, found', read', rfl⟩ | ⟨other', rfl⟩ <;>
    simp_all

theorem MembersAlike.takeField {α : Type} {alike : String → Json → Json → Prop} {field : String}
    {fields : List String} {members members' : List (String × Json)}
    (h : MembersAlike alike fields members members') (known : field ∈ fields)
    {read read' : Json → Except Mismatch α} (carries : Carries (alike field) read read')
    {given last : Option α}
    (found : members.foldlM (TinyScript.takeField field read) given = .ok last) :
    members'.foldlM (TinyScript.takeField field read') given = .ok last := by
  refine h.foldlM (takeField_commutes field read') ?_ ?_ found
  · intro state next key json json' like taken
    rw [takeField_eq_ok_iff] at taken ⊢
    rcases taken with ⟨rfl, empty, value, read, rfl⟩ | other
    · exact .inl ⟨rfl, empty, value, carries json json' value like read, rfl⟩
    · exact .inr other
  · intro state key json unknown
    exact takeField_eq_ok_iff.mpr (.inr ⟨fun same => unknown (same ▸ known), rfl⟩)

/-! ## Records with several fields

A member is at most one of the fields of a record, so that each field is read as if it were the only
one. -/

section Parts

variable {members : List (String × Json)}

theorem BinaryParts.foldlM_eq_ok_iff {operand : Json → Except Mismatch Expression}
    {parts last : BinaryParts} :
    members.foldlM (BinaryParts.member operand) parts = .ok last ↔
      members.foldlM (takeField "operator" Operator.ofJson) parts.operator = .ok last.operator ∧
      members.foldlM (takeField "left" operand) parts.left = .ok last.left ∧
      members.foldlM (takeField "right" operand) parts.right = .ok last.right := by
  induction members generalizing parts with
  | nil =>
    obtain ⟨operator, left, right⟩ := parts
    obtain ⟨operator', left', right'⟩ := last
    simp [pure, Except.pure]
  | cons member members ih =>
    obtain ⟨key, json⟩ := member
    simp only [foldlM_cons_eq_ok, ih]
    unfold BinaryParts.member
    split <;> simp_all [map_once_eq_ok_iff, once_eq_ok_iff, takeField] <;> grind

theorem ParameterParts.foldlM_eq_ok_iff {parts last : ParameterParts} :
    members.foldlM ParameterParts.member parts = .ok last ↔
      members.foldlM (takeField "name" Json.asString) parts.name = .ok last.name ∧
      members.foldlM (takeField "param_type" Json.asString) parts.typeName = .ok last.typeName := by
  induction members generalizing parts with
  | nil =>
    obtain ⟨name, typeName⟩ := parts
    obtain ⟨name', typeName'⟩ := last
    simp [pure, Except.pure]
  | cons member members ih =>
    obtain ⟨key, json⟩ := member
    simp only [foldlM_cons_eq_ok, ih]
    unfold ParameterParts.member
    split <;> simp_all [map_once_eq_ok_iff, once_eq_ok_iff, takeField] <;> grind

theorem VariableParts.foldlM_eq_ok_iff {parts last : VariableParts} :
    members.foldlM VariableParts.member parts = .ok last ↔
      members.foldlM (takeField "identifier" Json.asString) parts.name = .ok last.name ∧
      members.foldlM (takeField "value_type" Json.asString) parts.typeName = .ok last.typeName ∧
      members.foldlM (takeField "value" Expression.ofJson) parts.value = .ok last.value := by
  induction members generalizing parts with
  | nil =>
    obtain ⟨name, typeName, value⟩ := parts
    obtain ⟨name', typeName', value'⟩ := last
    simp [pure, Except.pure]
  | cons member members ih =>
    obtain ⟨key, json⟩ := member
    simp only [foldlM_cons_eq_ok, ih]
    unfold VariableParts.member
    split <;> simp_all [map_once_eq_ok_iff, once_eq_ok_iff, takeField] <;> grind

theorem FunctionParts.foldlM_eq_ok_iff {body : Json → Except Mismatch (List Statement)}
    {parts last : FunctionParts} :
    members.foldlM (FunctionParts.member body) parts = .ok last ↔
      members.foldlM (takeField "identifier" Json.asString) parts.name = .ok last.name ∧
      members.foldlM (takeField "parameters" Parameter.listOfJson) parts.parameters =
        .ok last.parameters ∧
      members.foldlM (takeField "return_type" Json.asString) parts.returnType =
        .ok last.returnType ∧
      members.foldlM (takeField "body" body) parts.body = .ok last.body := by
  induction members generalizing parts with
  | nil =>
    obtain ⟨name, parameters, returnType, statements⟩ := parts
    obtain ⟨name', parameters', returnType', statements'⟩ := last
    simp [pure, Except.pure]
  | cons member members ih =>
    obtain ⟨key, json⟩ := member
    simp only [foldlM_cons_eq_ok, ih]
    unfold FunctionParts.member
    split <;> simp_all [map_once_eq_ok_iff, once_eq_ok_iff, takeField] <;> grind

end Parts

/-! ## Fields in arrays -/

/-- A reader of all the items finds in items what another finds in items like them. -/
def ItemReader.Carries {α : Type} (alike : String → Json → Json → Prop) (fields : List String)
    (reader reader' : ItemReader α) : Prop :=
  ∀ record taken items items' value state, ItemsAlike alike fields items items' →
    reader record ⟨taken, items⟩ = .ok (value, state) → state.rest = [] →
    ∃ state', reader' record ⟨taken, items'⟩ = .ok (value, state') ∧ state'.rest = []

namespace ItemReader

variable {α β : Type} {alike : String → Json → Json → Prop} {field : String} {fields : List String}

theorem Carries.done (value : α) : Carries alike [] (pure value) (pure value) := by
  intro record taken items items' value' state same read ended
  cases read
  cases items with
  | nil =>
    rw [ItemsAlike] at same
    subst same
    exact ⟨_, rfl, rfl⟩
  | cons => cases ended

theorem Carries.cons {read read' : Json → Except Mismatch α} {more more' : α → ItemReader β}
    (first : TinyScript.Carries (alike field) read read')
    (others : ∀ value, Carries alike fields (more value) (more' value)) :
    Carries alike (field :: fields) (ItemReader.next read >>= more)
      (ItemReader.next read' >>= more') := by
  intro record taken items items' value state same found ended
  cases items with
  | nil => cases found
  | cons item items =>
    rw [ItemsAlike] at same
    obtain ⟨item', rest', rfl, like, same⟩ := same
    obtain ⟨⟨one, middle⟩, readOne, found⟩ := bind_eq_ok_iff.mp found
    obtain ⟨one', isOne, back⟩ := bind_eq_ok_iff.mp readOne
    cases back
    obtain ⟨state', found', ended'⟩ := others one record _ items rest' value state same found ended
    refine ⟨state', bind_eq_ok_iff.mpr ⟨(one, ⟨taken + 1, rest'⟩), ?_, found'⟩, ended'⟩
    exact bind_eq_ok_iff.mpr ⟨one, first item item' one like isOne, rfl⟩

theorem Carries.last {read read' : Json → Except Mismatch α}
    (only : TinyScript.Carries (alike field) read read') :
    Carries alike [field] (ItemReader.next read) (ItemReader.next read') := by
  simpa only [bind_pure] using Carries.cons only fun value => Carries.done value

theorem Carries.run {reader reader' : ItemReader α} (h : Carries alike fields reader reader')
    {record : String} {count : Nat} {items items' : List Json} {value : α}
    (same : ItemsAlike alike fields items items')
    (found : reader.run record count items = .ok value) :
    reader'.run record count items' = .ok value := by
  obtain ⟨⟨value', state⟩, read, found⟩ := bind_eq_ok_iff.mp found
  simp only at found
  split at found
  case isFalse => cases found
  case isTrue ended =>
    cases found
    obtain ⟨state', read', ended'⟩ := h _ _ _ _ _ _ same read (List.isEmpty_iff.mp ended)
    refine bind_eq_ok_iff.mpr ⟨(value, state'), read', ?_⟩
    exact if_pos (List.isEmpty_iff.mpr ended')

end ItemReader

/-! ## Records -/

section Records

variable {alike : String → Json → Json → Prop} {fields fields' : Fields}

theorem singleField_alike {α : Type} {record field : String} {read read' : Json → Except Mismatch α}
    (carries : Carries (alike field) read read') (same : FieldsAlike alike [field] fields fields')
    {value : α} (found : singleField record field read fields = .ok value) :
    singleField record field read' fields' = .ok value := by
  cases same with
  | members same =>
    obtain ⟨given, taken, found⟩ := bind_eq_ok_iff.mp found
    exact bind_eq_ok_iff.mpr ⟨given, same.takeField List.mem_cons_self carries taken, found⟩
  | items same => exact ItemReader.Carries.run (.last carries) same found

theorem Expression.ofBinaryFields_alike {operand operand' : Json → Except Mismatch Expression}
    (operator : Carries (alike "operator") Operator.ofJson Operator.ofJson)
    (left : Carries (alike "left") operand operand')
    (right : Carries (alike "right") operand operand')
    (same : FieldsAlike alike ["operator", "left", "right"] fields fields')
    {expression : Expression}
    (found : ofBinaryFields operand fields = .ok expression) :
    ofBinaryFields operand' fields' = .ok expression := by
  cases same with
  | members same =>
    obtain ⟨parts, taken, found⟩ := bind_eq_ok_iff.mp found
    obtain ⟨operators, lefts, rights⟩ := BinaryParts.foldlM_eq_ok_iff.mp taken
    refine bind_eq_ok_iff.mpr ⟨parts, BinaryParts.foldlM_eq_ok_iff.mpr ⟨?_, ?_, ?_⟩, found⟩
    · exact same.takeField (by simp) operator operators
    · exact same.takeField (by simp) left lefts
    · exact same.takeField (by simp) right rights
  | items same =>
    exact ItemReader.Carries.run (.cons operator fun _ => .cons left fun _ =>
      .cons right fun _ => .done _) same found

theorem Parameter.ofJson_alike {json json' : Json} {parameter : Parameter}
    (name : Carries (alike "name") Json.asString Json.asString)
    (typeName : Carries (alike "param_type") Json.asString Json.asString)
    (same : FieldsAlike alike ["name", "param_type"] fields fields')
    (form : json.fields "struct Parameter" = .ok fields)
    (form' : json'.fields "struct Parameter" = .ok fields')
    (found : ofJson json = .ok parameter) : ofJson json' = .ok parameter := by
  obtain ⟨_, read, found⟩ := bind_eq_ok_iff.mp found
  cases form.symm.trans read
  refine bind_eq_ok_iff.mpr ⟨fields', form', ?_⟩
  cases same with
  | members same =>
    obtain ⟨parts, taken, found⟩ := bind_eq_ok_iff.mp found
    obtain ⟨names, typeNames⟩ := ParameterParts.foldlM_eq_ok_iff.mp taken
    refine bind_eq_ok_iff.mpr ⟨parts, ParameterParts.foldlM_eq_ok_iff.mpr ⟨?_, ?_⟩, found⟩
    · exact same.takeField (by simp) name names
    · exact same.takeField (by simp) typeName typeNames
  | items same =>
    exact ItemReader.Carries.run (.cons name fun _ => .cons typeName fun _ =>
      .done _) same found

theorem Statement.ofVariableFields_alike
    (name : Carries (alike "identifier") Json.asString Json.asString)
    (typeName : Carries (alike "value_type") Json.asString Json.asString)
    (value : Carries (alike "value") Expression.ofJson Expression.ofJson)
    (same : FieldsAlike alike ["identifier", "value_type", "value"] fields fields')
    {statement : Statement} (found : ofVariableFields fields = .ok statement) :
    ofVariableFields fields' = .ok statement := by
  cases same with
  | members same =>
    obtain ⟨parts, taken, found⟩ := bind_eq_ok_iff.mp found
    obtain ⟨names, typeNames, values⟩ := VariableParts.foldlM_eq_ok_iff.mp taken
    refine bind_eq_ok_iff.mpr ⟨parts, VariableParts.foldlM_eq_ok_iff.mpr ⟨?_, ?_, ?_⟩, found⟩
    · exact same.takeField (by simp) name names
    · exact same.takeField (by simp) typeName typeNames
    · exact same.takeField (by simp) value values
  | items same =>
    exact ItemReader.Carries.run (.cons name fun _ => .cons typeName fun _ =>
      .cons value fun _ => .done _) same found

theorem Statement.ofFunctionFields_alike {body body' : Json → Except Mismatch (List Statement)}
    (name : Carries (alike "identifier") Json.asString Json.asString)
    (parameters : Carries (alike "parameters") Parameter.listOfJson Parameter.listOfJson)
    (returnType : Carries (alike "return_type") Json.asString Json.asString)
    (statements : Carries (alike "body") body body')
    (same : FieldsAlike alike ["identifier", "parameters", "return_type", "body"] fields fields')
    {statement : Statement} (found : ofFunctionFields body fields = .ok statement) :
    ofFunctionFields body' fields' = .ok statement := by
  cases same with
  | members same =>
    obtain ⟨parts, taken, found⟩ := bind_eq_ok_iff.mp found
    obtain ⟨names, rows, returnTypes, bodies⟩ := FunctionParts.foldlM_eq_ok_iff.mp taken
    refine bind_eq_ok_iff.mpr ⟨parts, FunctionParts.foldlM_eq_ok_iff.mpr ⟨?_, ?_, ?_, ?_⟩, found⟩
    · exact same.takeField (by simp) name names
    · exact same.takeField (by simp) parameters rows
    · exact same.takeField (by simp) returnType returnTypes
    · exact same.takeField (by simp) statements bodies
  | items same =>
    exact ItemReader.Carries.run (.cons name fun _ => .cons parameters fun _ =>
      .cons returnType fun _ => .cons statements fun _ => .done _) same found

theorem Statement.ofReturnFields_alike
    (argument : Carries (alike "argument") argumentOfJson argumentOfJson)
    (same : FieldsAlike alike ["argument"] fields fields') {statement : Statement}
    (found : ofReturnFields fields = .ok statement) : ofReturnFields fields' = .ok statement := by
  cases same with
  | members same =>
    obtain ⟨given, taken, found⟩ := bind_eq_ok_iff.mp found
    exact bind_eq_ok_iff.mpr ⟨given, same.takeField List.mem_cons_self argument taken, found⟩
  | items same =>
    exact ItemReader.Carries.run (.cons argument fun _ => .done _) same found

end Records

/-! ## Variants -/

/-- The variant is read as a field of its own, and what is left are the other members. -/
theorem Variants.split_eq_ok_iff {κ : Type} {variants : Variants κ} {kind kind' : Option κ}
    {members rest : List (String × Json)} :
    variants.split kind members = .ok (kind', rest) ↔
      members.foldlM (takeField "type" variants.ofJson) kind = .ok kind' ∧
        rest = members.filter (·.1 ≠ "type") := by
  induction members generalizing kind rest with
  | nil => simp [split, pure, Except.pure, eq_comm]
  | cons member members ih =>
    obtain ⟨key, json⟩ := member
    rw [split, foldlM_cons_eq_ok]
    by_cases tag : key = "type"
    · subst tag
      simp only [if_pos, takeField, bind_eq_ok_iff, ih]
      grind
    · simp only [if_neg tag, takeField, bind_eq_ok_iff, Prod.exists]
      simp only [pure, Except.pure, Except.ok.injEq, Prod.mk.injEq]
      grind

/-- A node in the same form, with fields that are alike. -/
inductive NodeAlike (alike : String → Json → Json → Prop) (fields : List String) :
    Json → Json → Prop
  | object {members members' : List (String × Json)}
      (same : MembersAlike alike fields members members') :
      NodeAlike alike fields (.object members) (.object members')
  | array {items items' : List Json} (same : ItemsAlike alike fields items items') :
      NodeAlike alike fields (.array items) (.array items')

section Nodes

variable {alike : String → Json → Json → Prop} {fields : List String}

theorem MembersAlike.filter {members members' : List (String × Json)}
    (h : MembersAlike alike ("type" :: fields) members members') :
    MembersAlike alike fields (members.filter (·.1 ≠ "type")) (members'.filter (·.1 ≠ "type")) := by
  obtain ⟨changed, added, same, unknown, perm⟩ := h
  refine ⟨changed.filter (·.1 ≠ "type"), added, ?_, fun member among => ?_, ?_⟩
  · refine List.rel_filter ?_ same
    rintro ⟨key, json⟩ ⟨key', json'⟩ ⟨rfl, -⟩
    simp
  · exact fun known => unknown member among (List.mem_cons_of_mem _ known)
  · have kept : added.filter (·.1 ≠ "type") = added := by
      refine List.filter_eq_self.mpr fun member among => ?_
      have other := unknown member among
      simp only [List.mem_cons, not_or] at other
      simpa using other.1
    have filtered := perm.filter (fun member => decide (member.1 ≠ "type"))
    rwa [List.filter_append, kept] at filtered

/-- The variant of a node is told from its tag, and its fields are alike. -/
theorem Json.variant_alike {κ : Type} {variants : Variants κ} {record : String} {json json' : Json}
    (tag : Carries (alike "type") variants.ofJson variants.ofJson)
    (same : NodeAlike alike ("type" :: fields) json json') {kind : κ} {found : Fields}
    (read : json.variant variants record = .ok (kind, found)) :
    ∃ found', json'.variant variants record = .ok (kind, found') ∧
      FieldsAlike alike fields found found' := by
  cases same with
  | object same =>
    obtain ⟨⟨kind', rest⟩, split, read⟩ := bind_eq_ok_iff.mp read
    obtain ⟨kind'', isKind, back⟩ := bind_eq_ok_iff.mp read
    cases back
    obtain ⟨taken, rfl⟩ := Variants.split_eq_ok_iff.mp split
    refine ⟨_, bind_eq_ok_iff.mpr ⟨(kind', _), Variants.split_eq_ok_iff.mpr ⟨?_, rfl⟩,
      bind_eq_ok_iff.mpr ⟨kind, isKind, rfl⟩⟩, .members same.filter⟩
    exact same.takeField List.mem_cons_self tag taken
  | @array items items' same =>
    cases items with
    | nil => cases read
    | cons first items =>
      rw [ItemsAlike] at same
      obtain ⟨first', rest', rfl, like, same⟩ := same
      obtain ⟨kind', isKind, back⟩ := bind_eq_ok_iff.mp read
      cases back
      exact ⟨.items rest', bind_eq_ok_iff.mpr ⟨kind, tag first first' kind like isKind, rfl⟩,
        .items same⟩

end Nodes

end TinyScript
