import DelegateSafety.Names.Map

/-! # Sets of names

Kept in increasing order, like the maps, so sets with the same members are equal (`ext_mem`).
-/
namespace DelegateSafety

abbrev NameSet := NameMap Unit

namespace NameSet

instance : Membership String NameSet := ⟨fun s name => s.contains name = true⟩

theorem mem_def {s : NameSet} {name : String} : name ∈ s ↔ s.contains name = true := Iff.rfl

instance (name : String) (s : NameSet) : Decidable (name ∈ s) :=
  inferInstanceAs (Decidable (s.contains name = true))

theorem exists_unit {p : Unit → Prop} : (∃ u, p u) ↔ p () := ⟨fun ⟨_, h⟩ => h, fun h => ⟨(), h⟩⟩

theorem mem_iff_find? {s : NameSet} {name : String} : name ∈ s ↔ s.find? name = some () := by
  rw [mem_def, NameMap.contains, Option.isSome_iff_exists, exists_unit]

theorem ext_mem {s t : NameSet} (h : ∀ name, name ∈ s ↔ name ∈ t) : s = t := by
  refine NameMap.ext_find? fun name => ?_
  have := h name
  rw [mem_iff_find?, mem_iff_find?] at this
  rcases hs : s.find? name with _ | _ <;> rcases ht : t.find? name with _ | _ <;> simp_all

def insert (s : NameSet) (name : String) : NameSet := NameMap.insert s name ()

def erase (s : NameSet) (name : String) : NameSet := s.filterMap fun other _ =>
  if other = name then none else some ()

def inter (s t : NameSet) : NameSet := s.intersectWith (fun _ _ => ()) t

def ofList (names : List String) : NameSet := names.foldl insert ∅

/-- Members in increasing order. -/
def toList (s : NameSet) : List String := s.keys

@[simp] theorem mem_toList {s : NameSet} {name : String} : name ∈ s.toList ↔ name ∈ s := by
  rw [mem_iff_find?, ← NameMap.mem_entries_iff, toList, NameMap.keys, List.mem_map]
  constructor
  · rintro ⟨entry, hEntry, rfl⟩
    exact hEntry
  · intro hEntry
    exact ⟨_, hEntry, rfl⟩

theorem nodup_toList (s : NameSet) : s.toList.Nodup := NameMap.nodup_keys s

@[simp] theorem not_mem_empty (name : String) : name ∉ (∅ : NameSet) := by
  simp [mem_iff_find?]

@[simp] theorem mem_insert {s : NameSet} {name other : String} :
    other ∈ s.insert name ↔ other = name ∨ other ∈ s := by
  by_cases h : other = name <;> simp [mem_iff_find?, insert, h]

@[simp] theorem mem_erase {s : NameSet} {name other : String} :
    other ∈ s.erase name ↔ other ≠ name ∧ other ∈ s := by
  by_cases h : other = name <;> simp [mem_iff_find?, erase, Option.bind_eq_some_iff, exists_unit, h]

@[simp] theorem mem_inter {s t : NameSet} {name : String} :
    name ∈ s.inter t ↔ name ∈ s ∧ name ∈ t := by
  simp [mem_iff_find?, inter, NameMap.find?_intersectWith, Option.bind_eq_some_iff, exists_unit]

end NameSet

end DelegateSafety
