import Mathlib
import TinyScript.Proofs.JsonValues

/-!
# Nodes in the JSON of a program

The nodes in the JSON of a program, and values that are read alike as what they stand for. What a
value stands for follows from the node around it, and a node is read alike if its fields are.
-/

namespace TinyScript

/-! ## Nodes and their fields -/

/-- What a value stands for in the JSON of a program. -/
inductive Role where
  | plain
  | expression
  | parameter
  | parameters
  | statement
  | statements
  | program
  deriving DecidableEq, Repr

/-- The fields of an expression in their order, and what their values stand for. -/
def ExpressionKind.fields : ExpressionKind → List (String × Role)
  | .binary => [("operator", .plain), ("left", .expression), ("right", .expression)]
  | .identifier => [("name", .plain)]
  | .number => [("value", .plain)]
  | .string => [("value", .plain)]

/-- The fields of a statement in their order, and what their values stand for. -/
def StatementKind.fields : StatementKind → List (String × Role)
  | .variableDeclaration => [("identifier", .plain), ("value_type", .plain), ("value", .expression)]
  | .functionDeclaration => [("identifier", .plain), ("parameters", .parameters),
      ("return_type", .plain), ("body", .statements)]
  | .returnStatement => [("argument", .expression)]

/-- The variant that an outline names. -/
def Variants.named? {κ : Type} (variants : Variants κ) : Outline → Option κ
  | .string (.ok name) => variants.lookup name
  | .number (.ok (.natural index)) => variants[index]?.map Prod.snd
  | _ => none

/-- The fields of a node with the given tag, the tag first where the node has one. A value that
    stands for no node has none. -/
def Role.fields? (tag? : Option Outline) : Role → Option (List (String × Role))
  | .expression => do
    return ("type", .plain) :: (← ExpressionKind.variants.named? (← tag?)).fields
  | .statement => do
    return ("type", .plain) :: (← StatementKind.variants.named? (← tag?)).fields
  | .parameter => some [("name", .plain), ("param_type", .plain)]
  | .program => some [("body", .statements)]
  | _ => none

/-- What the items of an array stand for, in their order. -/
def Role.itemRoles (items : List Outline) : Role → List Role
  | .statements => List.replicate items.length .statement
  | .parameters => List.replicate items.length .parameter
  | role => ((role.fields? items.head?).getD []).map Prod.snd

/-- What the value of a member stands for. -/
def roleOf (fields : List (String × Role)) : Except JsonFault String → Role
  | .ok key => (fields.lookup key).getD .plain
  | .error _ => .plain

/-- The tag among the members of a node. -/
def tagOf? (members : List (Except JsonFault String × Outline)) : Option Outline :=
  (members.find? fun member => member.1.toOption = some "type").map Prod.snd

/-! ## Values that are read alike -/

/-- The tag of a node, wherever it stands. -/
def Json.tag? : Json → Option Outline
  | .array items => (Outline.ofJsonItems items).head?
  | .object members => tagOf? (Outline.ofJsonMembers members)
  | _ => none

/-- What is read of a value in its role is read of another value too. -/
def Role.Keeps (json json' : Json) : Role → Prop
  | .plain => (∀ operator, Operator.ofJson json = .ok operator →
      Operator.ofJson json' = .ok operator) ∧ (json = .object [] → json' = .object [])
  | .expression => ∀ bound expression, Expression.ofJsonWithin bound json = .ok expression →
      ∀ bound', json'.depth < bound' → Expression.ofJsonWithin bound' json' = .ok expression
  | .parameter => ∀ parameter, Parameter.ofJson json = .ok parameter →
      Parameter.ofJson json' = .ok parameter
  | .parameters => ∀ parameters, Parameter.listOfJson json = .ok parameters →
      Parameter.listOfJson json' = .ok parameters
  | .statement => (∀ bound statement, Statement.ofJsonWithin bound json = .ok statement →
      ∀ bound', json'.depth < bound' → Statement.ofJsonWithin bound' json' = .ok statement) ∧
      ∀ statement, Statement.ofNode json = .ok statement →
        Statement.ofNode json' = .ok statement ∧ (json.TagIsText → json'.TagIsText)
  | .statements => (∀ bound statements,
      Statement.listOfJson (Statement.ofJsonWithin bound) json = .ok statements →
      ∀ bound', json'.depth < bound' →
        Statement.listOfJson (Statement.ofJsonWithin bound') json' = .ok statements) ∧
      ∀ statements, Statement.listOfJson Statement.ofJson json = .ok statements →
        Statement.listOfJson Statement.ofJson json' = .ok statements
  | .program => True

/-- A value that is read in its role as another one; where it has no parts it is the same. -/
structure Transfers (role : Role) (json json' : Json) : Prop where
  scalar : json.depth = 0 → json' = json
  keeps : role.Keeps json json'

theorem variants_carries {κ : Type} (variants : Variants κ) (role : Role) :
    Carries (Transfers role) variants.ofJson variants.ofJson := by
  intro json json' kind same found
  cases json with
  | array items => cases found
  | object members => cases found
  | null => cases found
  | _ => rwa [same.scalar rfl]

theorem asString_carries (role : Role) : Carries (Transfers role) Json.asString Json.asString := by
  intro json json' value same found
  cases json with
  | string => rwa [same.scalar rfl]
  | _ => cases found

theorem binary64_carries (role : Role) :
    Carries (Transfers role) Binary64.ofJson Binary64.ofJson := by
  intro json json' value same found
  cases json with
  | number => rwa [same.scalar rfl]
  | _ => cases found

theorem operator_carries : Carries (Transfers .plain) Operator.ofJson Operator.ofJson :=
  fun _ _ operator same => same.keeps.1 operator

theorem expression_carries :
    Carries (Transfers .expression) Expression.ofJson Expression.ofJson :=
  fun _ _ expression same found => same.keeps _ expression found _ (Nat.lt_succ_self _)

theorem map_eq_ok_of_imp {α β : Type} {attempt attempt' : Except Mismatch α} {f : α → β} {value : β}
    (h : ∀ found, attempt = .ok found → attempt' = .ok found) (read : f <$> attempt = .ok value) :
    f <$> attempt' = .ok value := by
  rw [map_eq_pure_bind] at read ⊢
  obtain ⟨found, isFound, rest⟩ := bind_eq_ok_iff.mp read
  exact bind_eq_ok_iff.mpr ⟨found, h found isFound, rest⟩

theorem argument_carries :
    Carries (Transfers .expression) Statement.argumentOfJson Statement.argumentOfJson := by
  have given {json : Json} (h : json ≠ .null) :
      Statement.argumentOfJson json = some <$> Expression.ofJson json := by
    cases json <;> first | exact absurd rfl h | rfl
  intro json json' argument same found
  by_cases absent : json = .null
  · subst absent
    rwa [same.scalar rfl]
  · rw [given absent] at found
    have present : json' ≠ .null := by
      rintro rfl
      obtain ⟨expression, read, -⟩ := bind_eq_ok_iff.mp ((map_eq_pure_bind ..).symm.trans found)
      cases expression_carries json .null expression same read
    rw [given present]
    exact map_eq_ok_of_imp (fun expression => expression_carries json json' expression same) found

/-! ## Tags -/

theorem Variants.named?_of_ofJson {κ : Type} {variants : Variants κ} {json : Json} {kind : κ}
    (h : variants.ofJson json = .ok kind) :
    variants.named? (Outline.ofJson json) = some kind := by
  unfold Variants.ofJson at h
  split at h
  · rw [Outline.ofJson, named?]
    cases found : variants.lookup _ <;> simp_all [Variants.named]
  · rw [Outline.ofJson, named?]
    split at h <;> simp_all
  · cases h

theorem tagOf?_cons (key : String) (json : Json) (members : List (String × Json)) :
    tagOf? (Outline.ofJsonMembers ((key, json) :: members)) =
      if key = "type" then some (Outline.ofJson json)
      else tagOf? (Outline.ofJsonMembers members) := by
  by_cases tag : key = "type" <;> simp [Outline.ofJsonMembers, tagOf?, Except.toOption, tag]

/-- The first tag is the one that is read. -/
theorem tagOf?_of_takeField {κ : Type} {variants : Variants κ} {kind : κ}
    {members : List (String × Json)}
    (h : members.foldlM (takeField "type" variants.ofJson) none = .ok (some kind)) :
    ∃ tag, tagOf? (Outline.ofJsonMembers members) = some tag ∧ variants.named? tag = some kind := by
  have given (found : κ) (members : List (String × Json))
      (h : members.foldlM (takeField "type" variants.ofJson) (some found) = .ok (some kind)) :
      found = kind := by
    induction members with
    | nil => simpa [pure, Except.pure] using h
    | cons member members ih =>
      obtain ⟨key, json⟩ := member
      obtain ⟨next, taken, rest⟩ := foldlM_cons_eq_ok.mp h
      rcases takeField_eq_ok_iff.mp taken with ⟨-, full, -⟩ | ⟨-, rfl⟩
      · cases full
      · exact ih rest
  induction members with
  | nil => cases h
  | cons member members ih =>
    obtain ⟨key, json⟩ := member
    obtain ⟨next, taken, rest⟩ := foldlM_cons_eq_ok.mp h
    rw [tagOf?_cons]
    rcases takeField_eq_ok_iff.mp taken with ⟨tag, -, found, read, rfl⟩ | ⟨other, rfl⟩
    · rw [if_pos tag]
      rw [given found members rest] at read
      exact ⟨_, rfl, Variants.named?_of_ofJson read⟩
    · rw [if_neg other]
      exact ih rest

/-- A variant that has been read is that of the tag. -/
theorem Variants.tag?_of_variant {κ : Type} {variants : Variants κ} {record : String} {json : Json}
    {kind : κ} {fields : Fields} (h : json.variant variants record = .ok (kind, fields)) :
    ∃ tag, json.tag? = some tag ∧ variants.named? tag = some kind := by
  cases json with
  | object members =>
    obtain ⟨⟨kind', rest⟩, split, found⟩ := bind_eq_ok_iff.mp h
    obtain ⟨kind'', isKind, back⟩ := bind_eq_ok_iff.mp found
    cases back
    obtain ⟨taken, -⟩ := Variants.split_eq_ok_iff.mp split
    rw [required_eq_ok_iff.mp isKind] at taken
    exact tagOf?_of_takeField taken
  | array items =>
    cases items with
    | nil => cases h
    | cons tag items =>
      obtain ⟨kind', isKind, back⟩ := bind_eq_ok_iff.mp h
      cases back
      exact ⟨Outline.ofJson tag, rfl, Variants.named?_of_ofJson isKind⟩
  | _ => cases h

/-! ## Nodes that are read alike -/

/-- Values of a field that are read alike. -/
def FieldTransfers (fields : List (String × Role)) (key : String) : Json → Json → Prop :=
  Transfers (roleOf fields (.ok key))

/-- Values of a field that are read alike and are nested less deeply than a bound. -/
def ShallowTransfers (fields : List (String × Role)) (bound : Nat) (key : String)
    (json json' : Json) : Prop :=
  FieldTransfers fields key json json' ∧ json'.depth < bound

theorem Json.depthOfItems_le_iff {items : List Json} {bound : Nat} :
    depthOfItems items ≤ bound ↔ ∀ item ∈ items, item.depth ≤ bound := by
  induction items with
  | nil => simp [depthOfItems]
  | cons item items ih => rw [depthOfItems, Nat.max_le, ih, List.forall_mem_cons]

theorem Json.depthOfMembers_le_iff {members : List (String × Json)} {bound : Nat} :
    depthOfMembers members ≤ bound ↔ ∀ member ∈ members, member.2.depth ≤ bound := by
  induction members with
  | nil => simp [depthOfMembers]
  | cons member members ih =>
    obtain ⟨key, value⟩ := member
    rw [depthOfMembers, Nat.max_le, ih, List.forall_mem_cons]

theorem Json.depth_lt_of_mem_items {items : List Json} {item : Json} (among : item ∈ items) :
    item.depth < (array items).depth := by
  rw [depth]
  exact Nat.lt_succ_of_le (depthOfItems_le_iff.mp le_rfl item among)

theorem Json.depth_lt_of_mem_members {members : List (String × Json)} {member : String × Json}
    (among : member ∈ members) : member.2.depth < (object members).depth := by
  rw [depth]
  exact Nat.lt_succ_of_le (depthOfMembers_le_iff.mp le_rfl member among)

theorem forall₂_and_of_mem {α β : Type} {related : α → β → Prop} {property : β → Prop}
    {items : List α} {items' : List β} (h : List.Forall₂ related items items')
    (all : ∀ item ∈ items', property item) :
    List.Forall₂ (fun item item' => related item item' ∧ property item') items items' := by
  induction h with
  | nil => exact .nil
  | cons first _ ih =>
    obtain ⟨holds, others⟩ := List.forall_mem_cons.mp all
    exact .cons ⟨first, holds⟩ (ih others)

theorem ItemsAlike.and_of_mem {alike : String → Json → Json → Prop} {property : Json → Prop} :
    {fields : List String} → {items items' : List Json} → ItemsAlike alike fields items items' →
    (∀ item ∈ items', property item) →
    ItemsAlike (fun key json json' => alike key json json' ∧ property json') fields items items'
  | _, [], _, same, _ => by
    rw [ItemsAlike] at same ⊢
    exact same
  | [], _ :: _, _, _, _ => by
    rw [ItemsAlike]
    trivial
  | field :: fields, item :: items, items', same, all => by
    rw [ItemsAlike] at same ⊢
    obtain ⟨item', rest', rfl, like, same⟩ := same
    obtain ⟨first, others⟩ := List.forall_mem_cons.mp all
    exact ⟨item', rest', rfl, ⟨like, first⟩, same.and_of_mem others⟩

theorem MembersAlike.and_of_mem {alike : String → Json → Json → Prop} {property : Json → Prop}
    {fields : List String} {members members' : List (String × Json)}
    (h : MembersAlike alike fields members members')
    (all : ∀ member ∈ members', property member.2) :
    MembersAlike (fun key json json' => alike key json json' ∧ property json') fields members
      members' := by
  obtain ⟨changed, added, same, unknown, perm⟩ := h
  have holds : ∀ member ∈ changed, property member.2 := fun member among =>
    all member (perm.mem_iff.mpr (List.mem_append_left _ among))
  refine ⟨changed, added, (forall₂_and_of_mem same holds).imp ?_, unknown, perm⟩
  exact fun _ _ like => ⟨like.1.1, like.1.2, like.2⟩

theorem NodeAlike.shallow {fields : List (String × Role)} {names : List String} {json json' : Json}
    (h : NodeAlike (FieldTransfers fields) names json json') {bound : Nat}
    (fits : json'.depth ≤ bound) : NodeAlike (ShallowTransfers fields bound) names json json' := by
  cases h with
  | object same =>
    exact .object (same.and_of_mem fun member among =>
      (Json.depth_lt_of_mem_members among).trans_le fits)
  | array same =>
    exact .array (same.and_of_mem fun item among =>
      (Json.depth_lt_of_mem_items among).trans_le fits)

/-- A reader that does not go deeper is not bothered by the bound. -/
theorem Carries.shallow {α : Type} {fields : List (String × Role)} {bound : Nat} {key : String}
    {read read' : Json → Except Mismatch α} (h : Carries (FieldTransfers fields key) read read') :
    Carries (ShallowTransfers fields bound key) read read' :=
  fun json json' value same => h json json' value same.1

theorem Expression.ofFields_transfers {kind : ExpressionKind} {found found' : Fields}
    {bound bound' : Nat}
    (same : FieldsAlike (ShallowTransfers (("type", .plain) :: kind.fields) bound')
      (kind.fields.map Prod.fst) found found')
    {expression : Expression} (read : ofFields (ofJsonWithin bound) found kind = .ok expression) :
    ofFields (ofJsonWithin bound') found' kind = .ok expression := by
  cases kind with
  | binary =>
    have operator : Carries (FieldTransfers (("type", .plain) :: ExpressionKind.binary.fields)
      "operator") Operator.ofJson Operator.ofJson := operator_carries
    refine ofBinaryFields_alike operator.shallow ?_ ?_ same read
    · exact fun json json' value like found => like.1.keeps bound value found bound' like.2
    · exact fun json json' value like found => like.1.keeps bound value found bound' like.2
  | identifier =>
    refine map_eq_ok_of_imp (fun name => ?_) read
    exact singleField_alike (Carries.shallow (asString_carries _)) same
  | number =>
    refine map_eq_ok_of_imp (fun value => ?_) read
    exact singleField_alike (Carries.shallow (binary64_carries _)) same
  | string =>
    refine map_eq_ok_of_imp (fun value => ?_) read
    exact singleField_alike (Carries.shallow (asString_carries _)) same

/-- If a value is a node, its fields are read alike. -/
def AlikeAsNode (role : Role) (json json' : Json) : Prop :=
  ∀ fields, role.fields? json.tag? = some fields →
    NodeAlike (FieldTransfers fields) (fields.map Prod.fst) json json'

theorem FieldTransfers.tagIsText {fields : List (String × Role)} {key : String} {json json' : Json}
    (h : FieldTransfers fields key json json') (text : ∃ name, json = .string name) :
    ∃ name, json' = .string name := by
  obtain ⟨name, rfl⟩ := text
  exact ⟨name, h.scalar rfl⟩

theorem NodeAlike.tagIsText {fields : List (String × Role)} {names : List String}
    {json json' : Json}
    (h : NodeAlike (FieldTransfers fields) ("type" :: names) json json') (text : json.TagIsText) :
    json'.TagIsText := by
  cases h with
  | object same =>
    obtain ⟨changed, added, same, unknown, perm⟩ := same
    intro member' among tag
    rcases List.mem_append.mp (perm.mem_iff.mp among) with inside | inside
    · clear perm among
      induction same with
      | nil => cases inside
      | @cons member changed _ _ like _ ih =>
        obtain ⟨first, others⟩ := List.forall_mem_cons.mp text
        rcases List.mem_cons.mp inside with rfl | inside
        · exact like.2.tagIsText (first (like.1.symm.trans tag))
        · exact ih others inside
    · exact absurd (tag ▸ List.mem_cons_self) (unknown member' inside)
  | @array items items' same =>
    cases items with
    | nil =>
      rw [ItemsAlike] at same
      simp [Json.TagIsText, same]
    | cons item items =>
      rw [ItemsAlike] at same
      obtain ⟨item', rest', rfl, like, -⟩ := same
      rintro tag ⟨⟩
      exact like.tagIsText (text item rfl)

/-- A node of a variant is a node of the same variant afterwards, with fields that are read
    alike. -/
theorem AlikeAsNode.variant {κ : Type} {variants : Variants κ} {record : String} {role : Role}
    {json json' : Json} {kind : κ} {found : Fields} {bound : Nat} (h : AlikeAsNode role json json')
    (fields : List (String × Role)) (fits : json'.depth ≤ bound)
    (isNode : ∀ tag, variants.named? tag = some kind →
      role.fields? (some tag) = some (("type", .plain) :: fields))
    (read : json.variant variants record = .ok (kind, found)) :
    (json.TagIsText → json'.TagIsText) ∧ ∃ found',
      json'.variant variants record = .ok (kind, found') ∧
      FieldsAlike (ShallowTransfers (("type", .plain) :: fields) bound) (fields.map Prod.fst)
        found found' := by
  obtain ⟨tag, isTag, named⟩ := Variants.tag?_of_variant read
  have node := h (("type", .plain) :: fields) (isTag ▸ isNode tag named)
  exact ⟨node.tagIsText, Json.variant_alike (Carries.shallow (variants_carries _ _))
    (node.shallow fits) read⟩

theorem Role.keeps_expression {json json' : Json} (same : AlikeAsNode .expression json json') :
    Role.expression.Keeps json json' := by
  intro bound expression h bound' fits
  obtain ⟨bound', rfl⟩ := Nat.exists_eq_succ_of_ne_zero (Nat.ne_zero_of_lt fits)
  cases bound with
  | zero => cases h
  | succ bound =>
    obtain ⟨⟨kind, found⟩, variant, read⟩ := bind_eq_ok_iff.mp h
    obtain ⟨-, found', variant', like⟩ := same.variant kind.fields (Nat.le_of_lt_succ fits)
      (fun tag named => by simp [Role.fields?, named]) variant
    exact bind_eq_ok_iff.mpr ⟨(kind, found'), variant', Expression.ofFields_transfers like read⟩

theorem Statement.ofFields_transfers {kind : StatementKind} {found found' : Fields} {bound : Nat}
    {body body' : Json → Except Mismatch (List Statement)}
    (bodies : Carries (fun json json' => Transfers .statements json json' ∧ json'.depth < bound)
      body body')
    (same : FieldsAlike (ShallowTransfers (("type", .plain) :: kind.fields) bound)
      (kind.fields.map Prod.fst) found found')
    {statement : Statement} (read : ofFields body found kind = .ok statement) :
    ofFields body' found' kind = .ok statement := by
  have text (key : String) : Carries (ShallowTransfers (("type", .plain) :: kind.fields) bound key)
      Json.asString Json.asString := Carries.shallow (asString_carries _)
  cases kind with
  | variableDeclaration =>
    have value : Carries
        (FieldTransfers (("type", .plain) :: StatementKind.variableDeclaration.fields) "value")
        Expression.ofJson Expression.ofJson := expression_carries
    exact ofVariableFields_alike (text _) (text _) value.shallow same read
  | functionDeclaration =>
    have parameters : Carries
        (FieldTransfers (("type", .plain) :: StatementKind.functionDeclaration.fields) "parameters")
        Parameter.listOfJson Parameter.listOfJson :=
      fun _ _ parameters same => same.keeps parameters
    exact ofFunctionFields_alike (text _) parameters.shallow (text _) bodies same read
  | returnStatement =>
    have argument : Carries
        (FieldTransfers (("type", .plain) :: StatementKind.returnStatement.fields) "argument")
        argumentOfJson argumentOfJson := argument_carries
    exact ofReturnFields_alike argument.shallow same read

theorem Statement.read_transfers {json json' : Json} (same : AlikeAsNode .statement json json')
    {body body' : Json → Except Mismatch (List Statement)} {bound : Nat}
    (fits : json'.depth ≤ bound)
    (bodies : Carries (fun json json' => Transfers .statements json json' ∧ json'.depth < bound)
      body body') {statement : Statement}
    (h : (do
      let (kind, fields) ← json.variant StatementKind.variants recordText
      ofFields body fields kind) = .ok statement) :
    (do
      let (kind, fields) ← json'.variant StatementKind.variants recordText
      ofFields body' fields kind) = .ok statement ∧ (json.TagIsText → json'.TagIsText) := by
  obtain ⟨⟨kind, found⟩, variant, read⟩ := bind_eq_ok_iff.mp h
  obtain ⟨text, found', variant', like⟩ := same.variant kind.fields fits
    (fun tag named => by simp [Role.fields?, named]) variant
  exact ⟨bind_eq_ok_iff.mpr ⟨(kind, found'), variant', ofFields_transfers bodies like read⟩, text⟩

theorem Role.keeps_statement {json json' : Json} (same : AlikeAsNode .statement json json') :
    Role.statement.Keeps json json' := by
  refine ⟨fun bound statement found bound' fits => ?_, fun statement found => ?_⟩
  · obtain ⟨bound', rfl⟩ := Nat.exists_eq_succ_of_ne_zero (Nat.ne_zero_of_lt fits)
    cases bound with
    | zero => cases found
    | succ bound =>
      have bodies : Carries
          (fun json inner => Transfers .statements json inner ∧ inner.depth < bound')
          (Statement.listOfJson (Statement.ofJsonWithin bound))
          (Statement.listOfJson (Statement.ofJsonWithin bound')) :=
        fun _ _ statements like read => like.1.keeps.1 bound statements read bound' like.2
      exact (Statement.read_transfers same (Nat.le_of_lt_succ fits) bodies found).1
  · have bodies : Carries
        (fun json inner => Transfers .statements json inner ∧ inner.depth < json'.depth)
        (Statement.listOfJson Statement.ofJson) (Statement.listOfJson Statement.ofJson) :=
      fun _ _ statements like read => like.1.keeps.2 statements read
    exact Statement.read_transfers same le_rfl bodies found

theorem Role.keeps_parameter {json json' : Json} (same : AlikeAsNode .parameter json json') :
    Role.parameter.Keeps json json' := by
  intro parameter found
  have text (key : String) : Carries (FieldTransfers [("name", .plain), ("param_type", .plain)] key)
      Json.asString Json.asString := asString_carries _
  cases same _ rfl with
  | object alike => exact Parameter.ofJson_alike (text _) (text _) (.members alike) rfl rfl found
  | array alike => exact Parameter.ofJson_alike (text _) (text _) (.items alike) rfl rfl found

/-! ## Rearranged values -/

/-- Items that are read alike in their roles. -/
def TransfersItems : List Role → List Json → List Json → Prop
  | _, [], items' => items' = []
  | roles, item :: items, items' =>
    ∃ item' rest', items' = item' :: rest' ∧ Transfers (roles.headD .plain) item item' ∧
      TransfersItems roles.tail items rest'

/-- No two fields of a node have the same key. -/
theorem Role.lookup_fields {role : Role} {tag? : Option Outline} {fields : List (String × Role)}
    (node : role.fields? tag? = some fields) :
    ∀ field ∈ fields, fields.lookup field.1 = some field.2 := by
  cases role with
  | expression =>
    obtain ⟨tag, -, h⟩ := Option.bind_eq_some_iff.mp node
    obtain ⟨kind, -, h⟩ := Option.bind_eq_some_iff.mp h
    cases h
    cases kind <;> simp [ExpressionKind.fields, List.lookup]
  | statement =>
    obtain ⟨tag, -, h⟩ := Option.bind_eq_some_iff.mp node
    obtain ⟨kind, -, h⟩ := Option.bind_eq_some_iff.mp h
    cases h
    cases kind <;> simp [StatementKind.fields, List.lookup]
  | parameter =>
    cases node
    simp [List.lookup]
  | program =>
    cases node
    simp
  | _ => cases node

theorem TransfersItems.alike {fields : List (String × Role)} :
    {row : List (String × Role)} → {items items' : List Json} →
    TransfersItems (row.map Prod.snd) items items' →
    (∀ field ∈ row, fields.lookup field.1 = some field.2) →
    ItemsAlike (FieldTransfers fields) (row.map Prod.fst) items items'
  | _, [], _, same, _ => by
    rw [TransfersItems] at same
    rwa [ItemsAlike]
  | [], _ :: _, _, _, _ => by
    rw [List.map_nil, ItemsAlike]
    trivial
  | field :: row, item :: items, items', same, known => by
    rw [TransfersItems] at same
    obtain ⟨item', rest', rfl, like, same⟩ := same
    obtain ⟨isField, others⟩ := List.forall_mem_cons.mp known
    rw [List.map_cons, ItemsAlike]
    refine ⟨item', rest', rfl, ?_, same.alike others⟩
    rw [FieldTransfers, roleOf, isField]
    exact like

theorem TransfersItems.forall₂ {role : Role} : {items items' : List Json} →
    TransfersItems (List.replicate items.length role) items items' →
    List.Forall₂ (Transfers role) items items'
  | [], _, same => by
    rw [TransfersItems] at same
    subst same
    exact .nil
  | item :: items, _, same => by
    rw [TransfersItems] at same
    obtain ⟨item', rest', rfl, like, same⟩ := same
    exact .cons like same.forall₂

theorem mapM_forall₂ {α β ε : Type} {f f' : α → Except ε β} {items items' : List α}
    (alike : List.Forall₂ (fun item item' => ∀ result, f item = .ok result → f' item' = .ok result)
      items items') {results : List β} (h : items.mapM f = .ok results) :
    items'.mapM f' = .ok results := by
  induction alike generalizing results with
  | nil => exact h
  | cons like _ ih =>
    rw [List.mapM_cons] at h ⊢
    obtain ⟨first, isFirst, h⟩ := bind_eq_ok_iff.mp h
    obtain ⟨others, areOthers, h⟩ := bind_eq_ok_iff.mp h
    exact bind_eq_ok_iff.mpr
      ⟨first, like first isFirst, bind_eq_ok_iff.mpr ⟨others, ih areOthers, h⟩⟩

theorem transfers_array {role : Role} {items items' : List Json}
    (same : TransfersItems (role.itemRoles (Outline.ofJsonItems items)) items items') :
    Transfers role (.array items) (.array items') where
  scalar flat := by simp [Json.depth] at flat
  keeps := by
    -- The items of a node stand for its fields in their order, the tag first.
    have node (roles : ∀ fields, role.fields? (Json.array items).tag? = some fields →
        role.itemRoles (Outline.ofJsonItems items) = fields.map Prod.snd) :
        AlikeAsNode role (.array items) (.array items') := by
      intro fields isNode
      rw [roles fields isNode] at same
      exact .array (same.alike (Role.lookup_fields isNode))
    cases role with
    | plain =>
      refine ⟨fun operator found => ?_, fun empty => ?_⟩
      · cases found
      · cases empty
    | program => trivial
    | expression =>
      refine Role.keeps_expression (node fun fields isNode => ?_)
      rw [Json.tag?] at isNode
      simp [Role.itemRoles, isNode]
    | statement =>
      refine Role.keeps_statement (node fun fields isNode => ?_)
      rw [Json.tag?] at isNode
      simp [Role.itemRoles, isNode]
    | parameter =>
      refine Role.keeps_parameter (node fun fields isNode => ?_)
      rw [Json.tag?] at isNode
      simp [Role.itemRoles, isNode]
    | parameters =>
      rw [Role.itemRoles, Outline.ofJsonItems_eq_map, List.length_map] at same
      intro parameters found
      have found : items.mapM Parameter.ofJson = .ok parameters := found
      exact mapM_forall₂ (same.forall₂.imp fun _ _ like => like.keeps) found
    | statements =>
      rw [Role.itemRoles, Outline.ofJsonItems_eq_map, List.length_map] at same
      refine ⟨fun bound statements found bound' fits => ?_, fun statements found => ?_⟩
      · have found : items.mapM (Statement.ofJsonWithin bound) = .ok statements := found
        have shallow : ∀ item ∈ items', item.depth < bound' := fun item among =>
          (Json.depth_lt_of_mem_items among).trans fits
        refine mapM_forall₂ ((forall₂_and_of_mem same.forall₂ shallow).imp ?_) found
        exact fun item item' like statement read =>
          like.1.keeps.1 bound statement read bound' like.2
      · have found : items.mapM Statement.ofJson = .ok statements := found
        refine mapM_forall₂ (same.forall₂.imp ?_) found
        exact fun item item' like statement read =>
          like.keeps.1 _ statement read _ (Nat.lt_succ_self _)

/-- Members in another order are read alike where they stand for no node. -/
theorem Role.keeps_plain {members changed members' : List (String × Json)}
    (same : List.Forall₂
      (fun member member' => member'.1 = member.1 ∧ Transfers .plain member.2 member'.2)
      members changed) (perm : members'.Perm changed) :
    Role.plain.Keeps (.object members) (.object members') := by
  refine ⟨fun operator found => ?_, fun empty => ?_⟩
  · cases same with
    | nil => cases found
    | @cons member member' rest rest' like others =>
      cases others with
      | cons => cases found
      | nil =>
        obtain ⟨key, json⟩ := member
        obtain ⟨key', json'⟩ := member'
        obtain ⟨rfl, like⟩ : key' = key ∧ Transfers .plain json json' := like
        cases List.perm_singleton.mp perm
        obtain ⟨operator', named, rest⟩ := bind_eq_ok_iff.mp found
        refine bind_eq_ok_iff.mpr ⟨operator', named, ?_⟩
        cases json with
        | null =>
          rw [like.scalar rfl]
          exact rest
        | object inner =>
          cases inner with
          | nil =>
            rw [like.keeps.2 rfl]
            exact rest
          | cons => cases rest
        | _ => cases rest
  · cases empty
    cases same
    cases perm.eq_nil
    rfl

theorem transfers_object {role : Role} {members changed added members' : List (String × Json)}
    {fields? : Option (List (String × Role))}
    (isNode : role.fields? (Json.object members).tag? = fields?)
    (same : List.Forall₂ (fun member member' =>
        member'.1 = member.1 ∧ FieldTransfers (fields?.getD []) member.1 member.2 member'.2)
      members changed)
    (unknown : ∀ member ∈ added, ∃ fields, fields? = some fields ∧ member.1 ∉ fields.map Prod.fst)
    (perm : members'.Perm (changed ++ added)) :
    Transfers role (.object members) (.object members') where
  scalar flat := by simp [Json.depth] at flat
  keeps := by
    have node : AlikeAsNode role (.object members) (.object members') := by
      intro fields known
      rw [isNode] at known
      subst known
      refine .object ⟨changed, added, same, fun member among => ?_, perm⟩
      obtain ⟨_, known, other⟩ := unknown member among
      cases known
      exact other
    cases role with
    | plain =>
      cases isNode
      -- Nothing is added where no node stands, so an operator keeps its one member.
      have none : added = [] := by
        refine List.eq_nil_iff_forall_not_mem.mpr fun member among => ?_
        obtain ⟨_, known, -⟩ := unknown member among
        cases known
      rw [none, List.append_nil] at perm
      exact Role.keeps_plain same perm
    | program => trivial
    | expression => exact Role.keeps_expression node
    | statement => exact Role.keeps_statement node
    | parameter => exact Role.keeps_parameter node
    | parameters =>
      intro parameters found
      cases found
    | statements =>
      refine ⟨fun bound statements found => ?_, fun statements found => ?_⟩
      · cases found
      · cases found

/-- What has no parts is no node and no list. -/
theorem Role.keeps_self {json : Json} (flat : json.depth = 0) (role : Role) :
    role.Keeps json json := by
  have noArray (items : List Json) : json ≠ .array items := by
    rintro rfl
    simp [Json.depth] at flat
  have noObject (members : List (String × Json)) : json ≠ .object members := by
    rintro rfl
    simp [Json.depth] at flat
  have noVariant {κ : Type} (variants : Variants κ) (record : String) (found : κ × Fields) :
      json.variant variants record ≠ .ok found := by
    cases json with
    | array items => exact absurd rfl (noArray items)
    | object members => exact absurd rfl (noObject members)
    | _ => simp [Json.variant, Json.mismatch]
  cases role with
  | plain => exact ⟨fun _ found => found, id⟩
  | parameter => exact fun _ found => found
  | parameters => exact fun _ found => found
  | program => trivial
  | expression =>
    intro bound expression found
    cases bound with
    | zero => cases found
    | succ bound =>
      obtain ⟨parts, variant, -⟩ := bind_eq_ok_iff.mp found
      exact absurd variant (noVariant _ _ _)
  | statement =>
    refine ⟨fun bound statement found => ?_, fun statement found => ⟨found, id⟩⟩
    cases bound with
    | zero => cases found
    | succ bound =>
      obtain ⟨parts, variant, -⟩ := bind_eq_ok_iff.mp found
      exact absurd variant (noVariant _ _ _)
  | statements =>
    refine ⟨fun bound statements found => ?_, fun statements found => found⟩
    cases json with
    | array items => exact absurd rfl (noArray items)
    | _ => cases found

theorem Transfers.self {json : Json} (flat : json.depth = 0) (role : Role) :
    Transfers role json json :=
  ⟨fun _ => rfl, role.keeps_self flat⟩

end TinyScript
