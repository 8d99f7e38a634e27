import Mathlib.Data.List.Forall2
import Mathlib.Data.List.Nodup
import Mathlib.Data.Option.Basic
import DelegateSafety.Json.Fields

/-! # Forms of a value in JSON

A form says which JSON values write a thing. Structures are objects with their fields by name, in
any order, and a field that has its default value may be left out. A structure that is read by its
field names gets from such an object what the fields were written for.
-/
namespace DelegateSafety.Json

abbrev Form := Json → Prop

/-- A field of a structure, as it is to be written for one value of the structure. -/
structure Field where
  key : String
  form : Form
  /-- The field has its default value. -/
  isDefault : Prop

namespace Field

def required (key : String) (form : Form) : Field := ⟨key, form, False⟩

def optional (key : String) (isDefault : Prop) (form : Form) : Field := ⟨key, form, isDefault⟩

@[simp] theorem key_required (key : String) (form : Form) : (required key form).key = key := rfl

@[simp] theorem key_optional (key : String) (isDefault : Prop) (form : Form) :
    (optional key isDefault form).key = key := rfl

@[simp] theorem form_required (key : String) (form : Form) : (required key form).form = form := rfl

@[simp] theorem form_optional (key : String) (isDefault : Prop) (form : Form) :
    (optional key isDefault form).form = form := rfl

/-- What is written for a field at some depth: nothing or a value. -/
inductive Reads (field : Field) (depth : Nat) : Option Json → Prop where
  | absent (hDefault : field.isDefault) : Reads field depth none
  | present {value} (hForm : field.form value) (hKeep : value.isKeepable depth) :
      Reads field depth (some value)

end Field

/-- The members of an object write the fields. -/
structure Members (fields : List Field) (members : List (String × Json)) : Prop where
  nodup : (members.map (·.1)).Nodup
  noJunk : ∀ member ∈ members, ∃ field ∈ fields, field.key = member.1
  total : ∀ field ∈ fields, field.isDefault ∨ ∃ value, (field.key, value) ∈ members
  form : ∀ field ∈ fields, ∀ value, (field.key, value) ∈ members → field.form value

/-- They do so where a value may still nest to some depth. -/
structure Kept (fields : List Field) (depth : Nat) (members : List (String × Json)) : Prop
    extends Members fields members where
  keepable : ∀ member ∈ members, member.2.isKeepable depth

namespace Form

def exactly (j : Json) : Form := (· = j)

def text (s : String) : Form := exactly (.string s)

def option {α : Type} (form : α → Form) (value : Option α) : Form := value.elim (exactly null) form

def array (forms : List Form) : Form := fun j =>
  ∃ items, j = .array items ∧ List.Forall₂ (fun form item => form item) forms items

def object (fields : List Field) : Form := fun j =>
  ∃ members, j = .object members ∧ Members fields members

end Form

/-! ## Writing fields -/

namespace Members

variable {fields : List Field} {members : List (String × Json)} {field : Field}

theorem nil : Members [] [] := ⟨List.nodup_nil, nofun, nofun, nofun⟩

theorem key_mem (h : Members fields members) {key : String} {value : Json}
    (hMember : (key, value) ∈ members) : key ∈ fields.map (·.key) :=
  List.mem_map.mpr (h.noJunk _ hMember)

theorem cons (h : Members fields members) (hKey : field.key ∉ fields.map (·.key)) {value : Json}
    (hForm : field.form value) : Members (field :: fields) ((field.key, value) :: members) where
  nodup := by
    refine List.nodup_cons.mpr ⟨fun hMem => ?_, h.nodup⟩
    obtain ⟨⟨key, other⟩, hMember, hSame : key = field.key⟩ := List.mem_map.mp hMem
    exact hKey (hSame ▸ h.key_mem hMember)
  noJunk member hMember := by
    rcases List.mem_cons.mp hMember with rfl | hRest
    · exact ⟨field, List.mem_cons_self, rfl⟩
    · obtain ⟨other, hOther, hSame⟩ := h.noJunk member hRest
      exact ⟨other, List.mem_cons_of_mem _ hOther, hSame⟩
  total other hOther := by
    rcases List.mem_cons.mp hOther with rfl | hRest
    · exact .inr ⟨value, List.mem_cons_self⟩
    · exact (h.total other hRest).imp_right fun ⟨v, hv⟩ => ⟨v, List.mem_cons_of_mem _ hv⟩
  form other hOther v hv := by
    rcases List.mem_cons.mp hOther with rfl | hRest
    · rcases List.mem_cons.mp hv with hSame | hMember
      · cases hSame
        exact hForm
      · exact absurd (h.key_mem hMember) hKey
    · rcases List.mem_cons.mp hv with hSame | hMember
      · rw [← (Prod.mk.inj hSame).1] at hKey
        exact absurd (List.mem_map_of_mem hRest) hKey
      · exact h.form other hRest v hMember

/-- A field that has its default value is left out. -/
theorem skip (h : Members fields members) (hKey : field.key ∉ fields.map (·.key))
    (hDefault : field.isDefault) : Members (field :: fields) members where
  nodup := h.nodup
  noJunk member hMember := by
    obtain ⟨other, hOther, hSame⟩ := h.noJunk member hMember
    exact ⟨other, List.mem_cons_of_mem _ hOther, hSame⟩
  total other hOther := by
    rcases List.mem_cons.mp hOther with rfl | hRest
    · exact .inl hDefault
    · exact h.total other hRest
  form other hOther v hv := by
    rcases List.mem_cons.mp hOther with rfl | hRest
    · exact absurd (h.key_mem hv) hKey
    · exact h.form other hRest v hv

theorem perm (h : Members fields members) {others : List (String × Json)}
    (hPerm : members.Perm others) : Members fields others where
  nodup := (hPerm.map (·.1)).nodup_iff.mp h.nodup
  noJunk member hMember := h.noJunk member (hPerm.mem_iff.mpr hMember)
  total field hField := by simpa only [hPerm.mem_iff] using h.total field hField
  form field hField value hValue := h.form field hField value (hPerm.mem_iff.mpr hValue)

/-- Every field is written, in the order of the fields. -/
theorem of_forall₂ (hNodup : (fields.map (·.key)).Nodup)
    (h : List.Forall₂ (fun field member => field.key = member.1 ∧ field.form member.2)
      fields members) : Members fields members := by
  induction h with
  | nil => exact nil
  | cons hMember _ ih =>
    obtain ⟨hKey, hRest⟩ := List.nodup_cons.mp hNodup
    obtain ⟨hSame, hForm⟩ := hMember
    have hCons := (ih hRest).cons hKey hForm
    rwa [hSame] at hCons

end Members

namespace Form

/-- An object with every field written, in the order of the fields, is of their form. -/
theorem object_of_forall₂ {fields : List Field} {members : List (String × Json)}
    (hNodup : (fields.map (·.key)).Nodup)
    (h : List.Forall₂ (fun field member => field.key = member.1 ∧ field.form member.2)
      fields members) : object fields (.object members) :=
  ⟨members, rfl, .of_forall₂ hNodup h⟩

@[simp] theorem exactly_self (j : Json) : exactly j j := rfl

@[simp] theorem text_string (s : String) : text s (.string s) := rfl

variable {α : Type} {form : α → Form} {toJson : α → Json}

@[simp] theorem option_ofOption {value : Option α} (h : ∀ x ∈ value, form x (toJson x)) :
    option form value (.ofOption toJson value) := by
  cases value with
  | none => rfl
  | some x => exact h x rfl

@[simp] theorem array_map {xs : List α} (h : ∀ x ∈ xs, form x (toJson x)) :
    array (xs.map form) (.array (xs.map toJson)) := by
  refine ⟨_, rfl, ?_⟩
  rw [List.forall₂_map_left_iff, List.forall₂_map_right_iff, List.forall₂_same]
  exact h

end Form

/-! ## What can be kept -/

theorem allReadable_iff (items : List Json) :
    allReadable items ↔ ∀ item ∈ items, item.isReadable := by
  induction items with
  | nil => simp [allReadable]
  | cons item rest ih => simp [allReadable, ih]

theorem membersReadable_iff (members : List (String × Json)) :
    membersReadable members ↔ ∀ member ∈ members, member.2.isReadable := by
  induction members with
  | nil => simp [membersReadable]
  | cons member rest ih => simp [membersReadable, ih]

theorem nestingOfAll_le_iff (items : List Json) (depth : Nat) :
    nestingOfAll items ≤ depth ↔ ∀ item ∈ items, item.nesting ≤ depth := by
  induction items with
  | nil => simp [nestingOfAll]
  | cons item rest ih => rw [nestingOfAll, Nat.max_le, ih, List.forall_mem_cons]

theorem nestingOfMembers_le_iff (members : List (String × Json)) (depth : Nat) :
    nestingOfMembers members ≤ depth ↔ ∀ member ∈ members, member.2.nesting ≤ depth := by
  induction members with
  | nil => simp [nestingOfMembers]
  | cons member rest ih => rw [nestingOfMembers, Nat.max_le, ih, List.forall_mem_cons]

theorem isKeepable_iff (j : Json) (depth : Nat) :
    j.isKeepable depth ↔ j.isReadable ∧ j.nesting ≤ depth := by
  simp [isKeepable]

theorem exists_inside_of_array {items : List Json} {depth : Nat}
    (h : (array items).isKeepable depth) :
    ∃ inside, depth = inside + 1 ∧ ∀ item ∈ items, item.isKeepable inside := by
  obtain ⟨hRead, hNesting⟩ := (isKeepable_iff _ _).mp h
  cases depth with
  | zero => cases hNesting
  | succ inside =>
    have hDepths := (nestingOfAll_le_iff items inside).mp (Nat.le_of_succ_le_succ hNesting)
    refine ⟨inside, rfl, fun item hItem => ?_⟩
    exact (isKeepable_iff _ _).mpr ⟨(allReadable_iff items).mp hRead item hItem, hDepths item hItem⟩

theorem exists_inside_of_object {members : List (String × Json)} {depth : Nat}
    (h : (object members).isKeepable depth) :
    ∃ inside, depth = inside + 1 ∧ ∀ member ∈ members, member.2.isKeepable inside := by
  obtain ⟨hRead, hNesting⟩ := (isKeepable_iff _ _).mp h
  cases depth with
  | zero => cases hNesting
  | succ inside =>
    have hDepths := (nestingOfMembers_le_iff members inside).mp (Nat.le_of_succ_le_succ hNesting)
    refine ⟨inside, rfl, fun member hMember => ?_⟩
    exact (isKeepable_iff _ _).mpr
      ⟨(membersReadable_iff members).mp hRead member hMember, hDepths member hMember⟩

theorem Form.object.exists_kept {fields : List Field} {j : Json} {depth : Nat}
    (h : Form.object fields j) (hKeep : j.isKeepable depth) :
    ∃ members inside, j = .object members ∧ depth = inside + 1 ∧ Kept fields inside members := by
  obtain ⟨members, rfl, hMembers⟩ := h
  obtain ⟨inside, rfl, hInside⟩ := exists_inside_of_object hKeep
  exact ⟨members, inside, rfl, rfl, hMembers, hInside⟩

/-! ## Reading by field names -/

theorem member?_of_mem {members : List (String × Json)} (hNodup : (members.map (·.1)).Nodup)
    {key : String} {value : Json} (h : (key, value) ∈ members) :
    member? members key = some (some value) := by
  have hFilter : members.filter (·.1 == key) = [(key, value)] := by
    induction members with
    | nil => cases h
    | cons member rest ih =>
      obtain ⟨hNew, hRest⟩ := List.nodup_cons.mp hNodup
      rcases List.mem_cons.mp h with rfl | hMem
      · have hNone : rest.filter (·.1 == key) = [] :=
          List.filter_eq_nil_iff.mpr fun other hOther hKey =>
            hNew (List.mem_map.mpr ⟨other, hOther, by simpa using hKey⟩)
        simp [hNone]
      · have hOther : member.1 ≠ key := by
          rintro rfl
          exact hNew (List.mem_map.mpr ⟨_, hMem, rfl⟩)
        simp [hOther, ih hRest hMem]
  rw [member?, hFilter]

theorem member?_of_not_mem {members : List (String × Json)} {key : String}
    (h : ∀ value, (key, value) ∉ members) : member? members key = some none := by
  have hFilter : members.filter (·.1 == key) = [] := by
    refine List.filter_eq_nil_iff.mpr fun member hMember hSame => h member.2 ?_
    rwa [← eq_of_beq hSame]
  rw [member?, hFilter]

namespace Kept

variable {fields : List Field} {depth : Nat} {members : List (String × Json)}

theorem member? (h : Kept fields depth members) {field : Field} (hField : field ∈ fields) :
    ∃ value, Json.member? members field.key = some value ∧ field.Reads depth value := by
  by_cases hPresent : ∃ value, (field.key, value) ∈ members
  · obtain ⟨value, hValue⟩ := hPresent
    exact ⟨some value, member?_of_mem h.nodup hValue,
      .present (h.form field hField value hValue) (h.keepable _ hValue)⟩
  · exact ⟨none, member?_of_not_mem (not_exists.mp hPresent),
      .absent ((h.total field hField).resolve_right hPresent)⟩

theorem member?_eq_none (h : Kept fields depth members) {key : String}
    (hKey : key ∉ fields.map (·.key)) : Json.member? members key = some none :=
  member?_of_not_mem fun _ hMember => hKey (h.key_mem hMember)

/-- The values of some of the fields, in the order in which they are asked for. -/
theorem fields? (h : Kept fields depth members) :
    ∀ chosen : List Field, chosen ⊆ fields →
      ∃ values, Json.fields? (chosen.map (·.key)) (.object members) = some values ∧
        List.Forall₂ (fun field value => field.Reads depth value) chosen values
  | [], _ => ⟨[], rfl, .nil⟩
  | field :: rest, hChosen => by
    obtain ⟨value, hValue, hReads⟩ := h.member? (hChosen List.mem_cons_self)
    obtain ⟨values, hValues, hRest⟩ := h.fields? rest (List.subset_of_cons_subset hChosen)
    refine ⟨value :: values, ?_, .cons hReads hRest⟩
    rw [Json.fields?] at hValues ⊢
    simp [hValue, hValues]

end Kept

section Parts

variable {α : Type} {depth : Nat} {decode : Json → Option α}

theorem required_eq {key : String} {form : Form} {value : Option Json} {x : α}
    (h : (Field.required key form).Reads depth value)
    (hDecode : ∀ j, form j → j.isKeepable depth → decode j = some x) :
    required decode value = some x := by
  cases h with
  | absent hDefault => exact hDefault.elim
  | present hForm hKeep => exact hDecode _ hForm hKeep

theorem orElse_eq {key : String} {form : Form} {value : Option Json} {x default : α}
    (h : (Field.optional key (x = default) form).Reads depth value)
    (hDecode : ∀ j, form j → j.isKeepable depth → decode j = some x) :
    orElse default decode value = some x := by
  cases h with
  | absent hDefault => exact congrArg some (Eq.symm hDefault)
  | present hForm hKeep => exact hDecode _ hForm hKeep

theorem nullable_eq {form : α → Form} {value : Option α} {j : Json} (h : Form.option form value j)
    (hNull : decode null = none) (hDecode : ∀ x ∈ value, form x j → decode j = some x) :
    nullable decode j = some value := by
  cases value with
  | none =>
    obtain rfl : j = null := h
    rfl
  | some x =>
    have hSome : decode j = some x := hDecode x rfl h
    unfold nullable
    split
    · rw [hNull] at hSome
      cases hSome
    · rw [hSome]
      rfl

theorem mapM_eq {xs : List α} {items : List Json}
    (h : List.Forall₂ (fun x item => decode item = some x) xs items) :
    items.mapM decode = some xs := by
  induction h with
  | nil => rfl
  | cons hItem _ ih => simp [hItem, ih]

theorem exists_items (decode : Nat → Json → Option α) {form : α → Form} {xs : List α} {j : Json}
    (h : Form.array (xs.map form) j) (hKeep : j.isKeepable depth)
    (hDecode : ∀ x ∈ xs, ∀ inside item, form x item → item.isKeepable inside →
      decode inside item = some x) :
    ∃ items inside, j = .array items ∧ depth = inside + 1 ∧ items.mapM (decode inside) = some xs := by
  obtain ⟨items, rfl, hItems⟩ := h
  obtain ⟨inside, rfl, hInside⟩ := exists_inside_of_array hKeep
  refine ⟨items, inside, rfl, rfl, mapM_eq ?_⟩
  rw [List.forall₂_map_left_iff] at hItems
  clear hKeep
  induction hItems with
  | nil => exact .nil
  | cons hItem _ ih =>
    rw [List.forall_mem_cons] at hDecode hInside
    exact .cons (hDecode.1 _ _ hItem hInside.1) (ih hDecode.2 hInside.2)

theorem list?_eq {decode : Place → Json → Option α} {form : α → Form} {xs : List α} {j : Json}
    {place : Place} (h : Form.array (xs.map form) j) (hKeep : j.isKeepable place.depth)
    (hDecode : ∀ x ∈ xs, ∀ place item, form x item → item.isKeepable place.depth →
      decode place item = some x) :
    list? decode place j = some xs := by
  obtain ⟨items, inside, rfl, hDepth, hItems⟩ :=
    exists_items (fun inside => decode ⟨inside, place.whole⟩) h hKeep
      fun x hx inside item => hDecode x hx ⟨inside, place.whole⟩ item
  simp [list?, Place.inside?, hDepth, hItems]

end Parts

end DelegateSafety.Json
