import Mathlib
import TinyScript.Proofs.JsonNodes
import TinyScript.Proofs.JsonReadings

/-!
# Rearranged members

Members in another order, and unknown members in the nodes of a program. Neither changes what is
read from a text.
-/

namespace TinyScript

/-! ## Rearranged outlines -/

/-- Members whose keys are no fields of a node, with any values that are not nested too deeply.
    There are none where there is no node. -/
def Unknown (room : Nat) (fields? : Option (List (String × Role)))
    (members : List (Except JsonFault String × Outline)) : Prop :=
  ∀ member ∈ members, ∃ fields key json, fields? = some fields ∧ key ∉ fields.map Prod.fst ∧
    member = (.ok key, Outline.ofJson json) ∧ json.depth ≤ room

namespace Outline

mutual

/-- The second outline is the first one with the members of some of its objects in another order,
    and with unknown members in some of those that stand for nodes. As many levels of arrays and
    objects may be added as there is room for. -/
def Rearranged (room : Nat) (role : Role) : Outline → Outline → Prop
  | array items ending, outline' =>
    ∃ items', outline' = array items' ending ∧
      RearrangedItems (room - 1) (role.itemRoles items) items items'
  | object members ending, outline' =>
    ∃ changed added members', outline' = object members' ending ∧
      RearrangedMembers (room - 1) ((role.fields? (tagOf? members)).getD []) members changed ∧
      Unknown (room - 1) (role.fields? (tagOf? members)) added ∧ members'.Perm (changed ++ added)
  | outline, outline' => outline' = outline

/-- Items that are rearranged one by one. -/
def RearrangedItems (room : Nat) (roles : List Role) : List Outline → List Outline → Prop
  | [], items' => items' = []
  | item :: items, items' =>
    ∃ item' rest', items' = item' :: rest' ∧ Rearranged room (roles.headD .plain) item item' ∧
      RearrangedItems room roles.tail items rest'

/-- Members whose values are rearranged one by one. -/
def RearrangedMembers (room : Nat) (fields : List (String × Role)) :
    List (Except JsonFault String × Outline) → List (Except JsonFault String × Outline) → Prop
  | [], members' => members' = []
  | (key, value) :: members, members' =>
    ∃ value' rest', members' = (key, value') :: rest' ∧
      Rearranged room (roleOf fields key) value value' ∧
      RearrangedMembers room fields members rest'

end

end Outline

/-- One unknown member may be added to the members of a node. -/
theorem unknown_singleton {room : Nat} {fields : List (String × Role)} (key : String) (json : Json)
    (other : key ∉ fields.map Prod.fst) (fits : json.depth ≤ room) :
    Unknown room (some fields) [(.ok key, .ofJson json)] := by
  intro member among
  obtain rfl := List.mem_singleton.mp among
  exact ⟨fields, key, json, rfl, other, rfl, fits⟩

namespace Outline

theorem exists_unknown {room : Nat} {fields? : Option (List (String × Role))}
    {members : List (Except JsonFault String × Outline)} (h : Unknown room fields? members) :
    ∃ added, members = ofJsonMembers added ∧ Json.depthOfMembers added ≤ room ∧
      ∀ member ∈ added, ∃ fields, fields? = some fields ∧ member.1 ∉ fields.map Prod.fst := by
  induction members with
  | nil => exact ⟨[], by rw [ofJsonMembers], by simp [Json.depthOfMembers], by simp⟩
  | cons member members ih =>
    obtain ⟨first, others⟩ := List.forall_mem_cons.mp h
    obtain ⟨fields, key, json, node, other, rfl, fits⟩ := first
    obtain ⟨added, rfl, fits', unknown⟩ := ih others
    refine ⟨(key, json) :: added, by rw [ofJsonMembers], ?_, ?_⟩
    · rw [Json.depthOfMembers]
      exact Nat.max_le.mpr ⟨fits, fits'⟩
    · exact List.forall_mem_cons.mpr ⟨⟨fields, node, other⟩, unknown⟩

/-- Members in another order are the members of another value. -/
theorem exists_perm {changed added : List (String × Json)}
    {outlines : List (Except JsonFault String × Outline)}
    (perm : outlines.Perm (ofJsonMembers changed ++ ofJsonMembers added)) :
    ∃ members, outlines = ofJsonMembers members ∧ members.Perm (changed ++ added) := by
  simp only [ofJsonMembers_eq_map, ← List.map_append] at perm ⊢
  have chosen := congrFun (congrFun (List.eq_map_comp_perm
    fun member : String × Json => ((.ok member.1 : Except JsonFault String), ofJson member.2))
    outlines) (changed ++ added)
  exact chosen.mpr perm

/-- What has no parts cannot be rearranged. -/
theorem transfers_flat {json : Json} {room : Nat} {role : Role} {outline' : Outline}
    (flat : json.depth = 0) (h : Rearranged room role (ofJson json) outline')
    (fits : json.depth ≤ room) :
    ∃ json', outline' = ofJson json' ∧ json'.depth ≤ room ∧ Transfers role json json' := by
  have same : outline' = ofJson json := by
    cases json with
    | array | object => simp [Json.depth] at flat
    | _ => simpa [ofJson, Rearranged] using h
  exact ⟨json, same, fits, .self flat role⟩

mutual

/-- A rearranged value can still be read, and it is read alike in its role. -/
theorem Rearranged.transfers : (json : Json) → (room : Nat) → (role : Role) → (outline' : Outline) →
    Rearranged room role (ofJson json) outline' → json.depth ≤ room →
    ∃ json', outline' = ofJson json' ∧ json'.depth ≤ room ∧ Transfers role json json'
  | .null, _, _, _, h, fits => transfers_flat rfl h fits
  | .bool _, _, _, _, h, fits => transfers_flat rfl h fits
  | .number _, _, _, _, h, fits => transfers_flat rfl h fits
  | .string _, _, _, _, h, fits => transfers_flat rfl h fits
  | .array items, room, role, outline', h, fits => by
    rw [ofJson, Rearranged] at h
    obtain ⟨outlines', rfl, rows⟩ := h
    rw [Json.depth] at fits
    obtain ⟨items', rfl, fits', same⟩ := RearrangedItems.transfers items _ _ _ rows (by omega)
    refine ⟨.array items', by rw [ofJson], ?_, transfers_array same⟩
    rw [Json.depth]
    omega
  | .object members, room, role, outline', h, fits => by
    rw [ofJson, Rearranged] at h
    obtain ⟨changed, added, outlines', rfl, rows, unknown, perm⟩ := h
    rw [Json.depth] at fits
    -- The roles come from the tag of the first object, and the second one has the same tag.
    obtain ⟨changed, rfl, fits', same⟩ := RearrangedMembers.transfers members _ _ _ rows (by omega)
    obtain ⟨added, rfl, fits'', unknown⟩ := exists_unknown unknown
    obtain ⟨members', rfl, perm'⟩ := exists_perm perm
    refine ⟨.object members', by rw [ofJson], ?_, transfers_object rfl same unknown perm'⟩
    have all : ∀ member ∈ members', member.2.depth ≤ room - 1 := by
      intro member among
      rcases List.mem_append.mp (perm'.mem_iff.mp among) with inside | inside
      · exact Json.depthOfMembers_le_iff.mp fits' member inside
      · exact Json.depthOfMembers_le_iff.mp fits'' member inside
    have := Json.depthOfMembers_le_iff.mpr all
    rw [Json.depth]
    omega

theorem RearrangedItems.transfers : (items : List Json) → (room : Nat) → (roles : List Role) →
    (outlines' : List Outline) → RearrangedItems room roles (ofJsonItems items) outlines' →
    Json.depthOfItems items ≤ room →
    ∃ items', outlines' = ofJsonItems items' ∧ Json.depthOfItems items' ≤ room ∧
      TransfersItems roles items items'
  | [], _, _, outlines', h, _ => by
    rw [ofJsonItems, RearrangedItems] at h
    exact ⟨[], by rw [h, ofJsonItems], by simp [Json.depthOfItems], by rw [TransfersItems]⟩
  | item :: items, room, roles, outlines', h, fits => by
    rw [ofJsonItems, RearrangedItems] at h
    obtain ⟨outline', rest', rfl, first, others⟩ := h
    rw [Json.depthOfItems, Nat.max_le] at fits
    obtain ⟨item', rfl, fits', like⟩ := Rearranged.transfers item _ _ _ first fits.1
    obtain ⟨items', rfl, fits'', same⟩ := RearrangedItems.transfers items _ _ _ others fits.2
    refine ⟨item' :: items', by rw [ofJsonItems], ?_, ?_⟩
    · rw [Json.depthOfItems]
      exact Nat.max_le.mpr ⟨fits', fits''⟩
    · rw [TransfersItems]
      exact ⟨item', items', rfl, like, same⟩

theorem RearrangedMembers.transfers : (members : List (String × Json)) → (room : Nat) →
    (fields : List (String × Role)) → (outlines' : List (Except JsonFault String × Outline)) →
    RearrangedMembers room fields (ofJsonMembers members) outlines' →
    Json.depthOfMembers members ≤ room →
    ∃ members', outlines' = ofJsonMembers members' ∧ Json.depthOfMembers members' ≤ room ∧
      List.Forall₂ (fun member member' =>
        member'.1 = member.1 ∧ FieldTransfers fields member.1 member.2 member'.2) members members'
  | [], _, _, outlines', h, _ => by
    rw [ofJsonMembers, RearrangedMembers] at h
    exact ⟨[], by rw [h, ofJsonMembers], by simp [Json.depthOfMembers], .nil⟩
  | (key, value) :: members, room, fields, outlines', h, fits => by
    rw [ofJsonMembers, RearrangedMembers] at h
    obtain ⟨outline', rest', rfl, first, others⟩ := h
    rw [Json.depthOfMembers, Nat.max_le] at fits
    obtain ⟨value', rfl, fits', like⟩ := Rearranged.transfers value _ _ _ first fits.1
    obtain ⟨members', rfl, fits'', same⟩ := RearrangedMembers.transfers members _ _ _ others fits.2
    refine ⟨(key, value') :: members', by rw [ofJsonMembers], ?_, .cons ⟨rfl, like⟩ same⟩
    rw [Json.depthOfMembers]
    exact Nat.max_le.mpr ⟨fits', fits''⟩

end

/-! ## Rows of rearranged outlines -/

theorem RearrangedItems.forall₂ {room : Nat} {role : Role} : {items items' : List Outline} →
    RearrangedItems room (List.replicate items.length role) items items' →
    List.Forall₂ (Rearranged room role) items items'
  | [], items', h => by
    rw [RearrangedItems] at h
    rw [h]
    exact .nil
  | item :: items, items', h => by
    rw [List.length_cons, List.replicate_succ, RearrangedItems] at h
    obtain ⟨item', rest', rfl, first, others⟩ := h
    exact .cons first (RearrangedItems.forall₂ others)

theorem RearrangedMembers.forall₂ {room : Nat} {fields : List (String × Role)} :
    {members members' : List (Except JsonFault String × Outline)} →
    RearrangedMembers room fields members members' →
    List.Forall₂ (fun member member' => member'.1 = member.1 ∧
      Rearranged room (roleOf fields member.1) member.2 member'.2) members members'
  | [], members', h => by
    rw [RearrangedMembers] at h
    rw [h]
    exact .nil
  | (key, value) :: members, members', h => by
    rw [RearrangedMembers] at h
    obtain ⟨value', rest', rfl, first, others⟩ := h
    exact .cons ⟨rfl, first⟩ (RearrangedMembers.forall₂ others)

theorem skimMembers_eq_none_iff {members : List (Except JsonFault String × Outline)} :
    skimMembers members = none ↔ ∀ member ∈ members, member.2.skim = none := by
  induction members with
  | nil => simp [skimMembers]
  | cons member members ih =>
    obtain ⟨key, value⟩ := member
    rw [skimMembers, Option.or_eq_none_iff, ih, List.forall_mem_cons]

theorem skimItems_eq_none_iff {items : List Outline} :
    skimItems items = none ↔ ∀ item ∈ items, item.skim = none := by
  induction items with
  | nil => simp [skimItems]
  | cons item items ih => rw [skimItems, Option.or_eq_none_iff, ih, List.forall_mem_cons]

end Outline

/-! ## Rearranged programs -/

theorem exists_of_mapM {α β ε : Type} {f : α → Except ε β} {items : List α} {results : List β}
    (h : items.mapM f = .ok results) : ∀ item ∈ items, ∃ result, f item = .ok result := by
  induction items generalizing results with
  | nil => simp
  | cons item items ih =>
    rw [List.mapM_cons] at h
    obtain ⟨result, first, h⟩ := bind_eq_ok_iff.mp h
    obtain ⟨others, rest, -⟩ := bind_eq_ok_iff.mp h
    exact List.forall_mem_cons.mpr ⟨⟨result, first⟩, ih rest⟩

theorem exists_of_foldlM {σ μ ε : Type} {step : σ → μ → Except ε σ} {members : List μ}
    {state last : σ} (h : members.foldlM step state = .ok last) :
    ∀ member ∈ members, ∃ given next, step given member = .ok next := by
  induction members generalizing state with
  | nil => simp
  | cons member members ih =>
    obtain ⟨next, read, rest⟩ := foldlM_cons_eq_ok.mp h
    exact List.forall_mem_cons.mpr ⟨⟨state, next, read⟩, ih rest⟩

namespace Statement

theorem ofOutline_rearranged {levels : Nat} {outline outline' : Outline} {statement : Statement}
    (h : outline.Rearranged (levels + 1) .statement outline')
    (found : ofOutline (levels + 1) outline = .ok statement) :
    ofOutline (levels + 1) outline' = .ok statement := by
  obtain ⟨json, rfl, text, fits, found⟩ := ofOutline_eq_ok_iff.mp found
  obtain ⟨json', rfl, fits', same⟩ := Outline.Rearranged.transfers json _ _ _ h fits
  obtain ⟨found', text'⟩ := same.keeps.2 statement found
  exact ofOutline_eq_ok_iff.mpr ⟨json', rfl, text' text, fits', found'⟩

theorem listOfOutline_eq_ok_iff {levels : Nat} {outline : Outline} {statements : List Statement} :
    listOfOutline levels outline = .ok statements ↔ ∃ items, outline = .array items none ∧
      items.mapM (ofOutline (levels - 1)) = .ok statements := by
  cases outline with
  | array items ending =>
    simp only [listOfOutline, bind_eq_ok_iff, mapError_eq_ok_iff, Outline.checkEnding_eq_ok_iff,
      pure, Except.pure, Except.ok.injEq]
    grind
  | _ => simp [listOfOutline]

theorem listOfOutline_rearranged {levels : Nat} {outline outline' : Outline}
    {statements : List Statement} (h : outline.Rearranged (levels + 2) .statements outline')
    (found : listOfOutline (levels + 2) outline = .ok statements) :
    listOfOutline (levels + 2) outline' = .ok statements := by
  obtain ⟨items, rfl, read⟩ := listOfOutline_eq_ok_iff.mp found
  rw [Outline.Rearranged] at h
  obtain ⟨items', rfl, rows⟩ := h
  refine listOfOutline_eq_ok_iff.mpr ⟨items', rfl, mapM_forall₂ ?_ read⟩
  exact rows.forall₂.imp fun _ _ like statement read => ofOutline_rearranged like read

theorem skim_of_ofOutline {levels : Nat} {outline : Outline} {statement : Statement}
    (found : ofOutline (levels + 1) outline = .ok statement) : outline.skim = none := by
  obtain ⟨json, rfl, -⟩ := ofOutline_eq_ok_iff.mp found
  exact Outline.skim_ofJson json

theorem skim_of_listOfOutline {levels : Nat} {outline : Outline} {statements : List Statement}
    (found : listOfOutline (levels + 2) outline = .ok statements) : outline.skim = none := by
  obtain ⟨items, rfl, read⟩ := listOfOutline_eq_ok_iff.mp found
  have clean : Outline.skimItems items = none := by
    refine Outline.skimItems_eq_none_iff.mpr fun item among => ?_
    obtain ⟨statement, isRead⟩ := exists_of_mapM read item among
    exact skim_of_ofOutline isRead
  rw [Outline.skim, clean, Option.none_or]

end Statement

namespace Program

theorem bodyMember_eq_ok_iff {levels : Nat} {body next : Option (List Statement)}
    {member : Except JsonFault String × Outline} :
    bodyMember levels body member = .ok next ↔ ∃ key, member.1 = .ok key ∧
      ((key = "body" ∧ body = none ∧ ∃ statements,
        Statement.listOfOutline levels member.2 = .ok statements ∧ next = some statements) ∨
      (key ≠ "body" ∧ member.2.skim = none ∧ next = body)) := by
  obtain ⟨key, value⟩ := member
  rw [bodyMember, bind_eq_ok_iff]
  simp only [mapError_eq_ok_iff]
  refine exists_congr fun key => and_congr_right fun _ => ?_
  by_cases field : key = "body"
  · cases body with
    | some => simp [field]
    | none =>
      cases read : Statement.listOfOutline levels value <;>
        simp [field, Functor.map, Except.map, eq_comm]
  · cases clean : value.skim <;> simp [field, eq_comm]

theorem bodyMember_commutes (levels : Nat) : Commutes (bodyMember levels) := by
  intro body first second next last read read'
  obtain ⟨key, isKey, taken⟩ := bodyMember_eq_ok_iff.mp read
  obtain ⟨key', isKey', taken'⟩ := bodyMember_eq_ok_iff.mp read'
  simp only [bodyMember_eq_ok_iff, isKey, isKey', Except.ok.injEq, exists_eq_left']
  rcases taken with ⟨rfl, rfl, statements, found, rfl⟩ | ⟨other, clean, rfl⟩
  · rcases taken' with ⟨-, ⟨⟩, -⟩ | ⟨other', clean', rfl⟩
    exact ⟨none, .inr ⟨other', clean', rfl⟩, .inl ⟨rfl, rfl, statements, found, rfl⟩⟩
  · exact ⟨last, taken', .inr ⟨other, clean, rfl⟩⟩

theorem bodyMember_rearranged {levels : Nat} {member member' : Except JsonFault String × Outline}
    (sameKey : member'.1 = member.1)
    (h : member.2.Rearranged (levels + 2) (roleOf [("body", .statements)] member.1) member'.2)
    (clean : member'.2.skim = none) (body next : Option (List Statement))
    (read : bodyMember (levels + 2) body member = .ok next) :
    bodyMember (levels + 2) body member' = .ok next := by
  obtain ⟨key, isKey, taken⟩ := bodyMember_eq_ok_iff.mp read
  refine bodyMember_eq_ok_iff.mpr ⟨key, sameKey.trans isKey, ?_⟩
  rcases taken with ⟨rfl, unset, statements, found, taken⟩ | ⟨other, -, taken⟩
  · rw [isKey] at h
    exact .inl ⟨rfl, unset, statements, Statement.listOfOutline_rearranged h found, taken⟩
  · exact .inr ⟨other, clean, taken⟩

theorem ofOutline_eq_ok_iff {levels : Nat} {outline : Outline} {program : Program} :
    ofOutline levels outline = .ok program ↔
      (∃ members, outline = .object members none ∧
        members.foldlM (bodyMember (levels - 1)) none = .ok (some program.body)) ∨
      (∃ item, outline = .array [item] none ∧
        Statement.listOfOutline (levels - 1) item = .ok program.body) := by
  constructor
  · intro h
    cases outline with
    | object members ending =>
      obtain ⟨given, read, h⟩ := bind_eq_ok_iff.mp h
      obtain ⟨⟨⟩, ended, h⟩ := bind_eq_ok_iff.mp h
      obtain ⟨body, isGiven, ⟨⟩⟩ := bind_eq_ok_iff.mp h
      obtain rfl := Outline.checkEnding_eq_ok_iff.mp (mapError_eq_ok_iff.mp ended)
      obtain rfl := required_eq_ok_iff.mp (mapError_eq_ok_iff.mp isGiven)
      exact .inl ⟨members, rfl, read⟩
    | array items ending =>
      cases items with
      | nil => obtain ⟨_, -, ⟨⟩⟩ := bind_eq_ok_iff.mp h
      | cons item items =>
        obtain ⟨body, read, h⟩ := bind_eq_ok_iff.mp h
        cases items with
        | nil =>
          obtain ⟨⟨⟩, ended, ⟨⟩⟩ := bind_eq_ok_iff.mp h
          obtain rfl := Outline.checkEnding_eq_ok_iff.mp (mapError_eq_ok_iff.mp ended)
          exact .inr ⟨item, rfl, read⟩
        | cons => cases h
    | _ => cases h
  · rintro (⟨members, rfl, read⟩ | ⟨item, rfl, read⟩)
    · exact bind_eq_ok_iff.mpr ⟨_, read, rfl⟩
    · exact bind_eq_ok_iff.mpr ⟨_, read, rfl⟩

/-- A rearranged program is the same program. -/
theorem ofOutline_rearranged {levels : Nat} {outline outline' : Outline} {program : Program}
    (h : outline.Rearranged (levels + 3) .program outline') (clean : outline'.skim = none)
    (found : ofOutline (levels + 3) outline = .ok program) :
    ofOutline (levels + 3) outline' = .ok program := by
  rcases ofOutline_eq_ok_iff.mp found with ⟨members, rfl, read⟩ | ⟨item, rfl, read⟩
  · rw [Outline.Rearranged] at h
    obtain ⟨changed, added, members', rfl, rows, unknown, perm⟩ := h
    rw [Outline.skim, Option.or_none, Outline.skimMembers_eq_none_iff] at clean
    refine ofOutline_eq_ok_iff.mpr
      (.inl ⟨members', rfl, foldlM_rearranged (bodyMember_commutes _) ?_ ?_ perm read⟩)
    -- All that is asked of the other members is that they can be skimmed.
    · have cleanChanged : ∀ member ∈ changed, member.2.skim = none := fun member among =>
        clean member (perm.mem_iff.mpr (List.mem_append_left _ among))
      refine (forall₂_and_of_mem rows.forall₂ cleanChanged).imp ?_
      exact fun member member' like => bodyMember_rearranged like.1.1 like.1.2 like.2
    · intro member among body
      obtain ⟨fields, key, json, isFields, other, rfl, -⟩ := unknown member among
      obtain rfl : [("body", .statements)] = fields := Option.some.inj isFields
      exact bodyMember_eq_ok_iff.mpr
        ⟨key, rfl, .inr ⟨by simpa using other, Outline.skim_ofJson json, rfl⟩⟩
  · rw [Outline.Rearranged] at h
    obtain ⟨items', rfl, rows⟩ := h
    rw [Outline.RearrangedItems] at rows
    obtain ⟨item', rest', rfl, like, rest⟩ := rows
    rw [Outline.RearrangedItems] at rest
    subst rest
    exact ofOutline_eq_ok_iff.mpr
      (.inr ⟨item', rfl, Statement.listOfOutline_rearranged like read⟩)

theorem skim_of_ofOutline {levels : Nat} {outline : Outline} {program : Program}
    (found : ofOutline (levels + 3) outline = .ok program) : outline.skim = none := by
  rcases ofOutline_eq_ok_iff.mp found with ⟨members, rfl, read⟩ | ⟨item, rfl, read⟩
  · rw [Outline.skim, Option.or_none, Outline.skimMembers_eq_none_iff]
    intro member among
    obtain ⟨body, next, read⟩ := exists_of_foldlM read member among
    obtain ⟨key, -, taken⟩ := bodyMember_eq_ok_iff.mp read
    rcases taken with ⟨-, -, statements, found, -⟩ | ⟨-, clean, -⟩
    · exact Statement.skim_of_listOfOutline found
    · exact clean
  · rw [Outline.skim, Option.or_none, Outline.skimItems, Outline.skimItems, Option.or_none]
    exact Statement.skim_of_listOfOutline read

theorem ofJsonText_eq_ok_iff {text : String} {program : Program} :
    ofJsonText text = .ok program ↔ ∃ outline, Outline.ofText text = (outline, false) ∧
      ofOutline Outline.nestingLimit outline = .ok program := by
  rcases found : Outline.ofText text with ⟨outline, trailing⟩
  cases trailing <;>
    simp [ofJsonText, TinyScript.ofJsonText, found, bind_eq_ok_iff, pure, Except.pure]

/-- Reading ignores the order of members and unknown members. A program that is read from a text is
    read from every text of the same outline with members in another order and unknown members
    added. -/
theorem ofJsonText_of_rearranged {text : String} {program : Program}
    (read : ofJsonText text = .ok program) :
    (∃ outline : Outline, outline.IsWrittenAs text) ∧
      ∀ (outline outline' : Outline) (text' : String), outline.IsWrittenAs text →
        outline.Rearranged Outline.nestingLimit .program outline' → outline'.IsWrittenAs text' →
        ofJsonText text' = .ok program := by
  obtain ⟨given, ofText, found⟩ := ofJsonText_eq_ok_iff.mp read
  refine ⟨⟨given, Outline.isWrittenAs_of_ofText ofText (skim_of_ofOutline found)⟩, ?_⟩
  intro outline outline' text' written h written'
  obtain rfl : outline = given := by
    have same := (Outline.ofText_of_isWrittenAs written).symm.trans ofText
    exact congrArg Prod.fst same
  have clean : outline'.skim = none := Outline.IsWrittenAs.skim_eq_none written'
  exact ofJsonText_eq_ok_iff.mpr ⟨outline', Outline.ofText_of_isWrittenAs written',
    ofOutline_rearranged h clean found⟩

theorem ofJsonText_of_rearranged_return :
    ofJsonText ("\x7b\"body\":[\x7b\"type\":\"ReturnStatement\"," ++
        "\"argument\":\x7b\"type\":\"Identifier\",\"name\":\"a\"\x7d\x7d]\x7d") =
        .ok ⟨[.returnStatement (some (.identifier "a"))]⟩ ∧
      ofJsonText ("\x7b\"later\":null,\"body\":[\x7b" ++
        "\"argument\":\x7b\"name\":\"a\",\"left\":[true],\"type\":\"Identifier\"\x7d," ++
        "\"type\":\"ReturnStatement\",\"name\":\"\"\x7d]\x7d") =
        .ok ⟨[.returnStatement (some (.identifier "a"))]⟩ := by
  have read : ofJsonText ("\x7b\"body\":[\x7b\"type\":\"ReturnStatement\"," ++
        "\"argument\":\x7b\"type\":\"Identifier\",\"name\":\"a\"\x7d\x7d]\x7d") =
      .ok ⟨[.returnStatement (some (.identifier "a"))]⟩ := by cbv
  have argument : Outline.Rearranged 124 .expression
      (.object [(.ok "type", .string (.ok "Identifier")), (.ok "name", .string (.ok "a"))] none)
      (.object [(.ok "name", .string (.ok "a")), (.ok "left", .array [.bool true] none),
        (.ok "type", .string (.ok "Identifier"))] none) :=
    ⟨_, _, _, rfl, ⟨_, _, rfl, rfl, _, _, rfl, rfl, rfl⟩,
      unknown_singleton "left" (.array [.bool true]) (by decide) (by decide),
      @List.perm_append_comm _ [_, _] [_]⟩
  have statement : Outline.Rearranged 125 .statement
      (.object [(.ok "type", .string (.ok "ReturnStatement")), (.ok "argument", _)] none)
      (.object [(.ok "argument", _), (.ok "type", .string (.ok "ReturnStatement")),
        (.ok "name", .string (.ok ""))] none) :=
    ⟨_, _, _, rfl, ⟨_, _, rfl, rfl, _, _, rfl, argument, rfl⟩,
      unknown_singleton "name" (.string "") (by decide) (by decide), .swap _ _ _⟩
  have program : Outline.Rearranged Outline.nestingLimit .program
      (.object [(.ok "body", .array [_] none)] none)
      (.object [(.ok "later", .null), (.ok "body", .array [_] none)] none) :=
    ⟨_, _, _, rfl, ⟨_, _, rfl, ⟨_, rfl, _, _, rfl, statement, rfl⟩, rfl⟩,
      unknown_singleton "later" .null (by decide) (by decide), .swap _ _ _⟩
  exact ⟨read, (ofJsonText_of_rearranged read).2 _ _ _
    (Outline.isWrittenAs_of_ofText (by cbv) rfl) program
    (Outline.isWrittenAs_of_ofText (by cbv) rfl)⟩

end Program

end TinyScript
