/-!
# Maps keyed by names

A finite map whose entries stand in strictly increasing order of their keys. The order is part of
the value, so two maps with the same lookups are equal (`ext_find?`) and listing one is listing it
by name.
-/
namespace DelegateSafety

structure NameMap (α : Type) where
  entries : List (String × α)
  sorted : entries.Pairwise (·.1 < ·.1)
  deriving DecidableEq

namespace NameMap

variable {α β γ : Type}

theorem entries_injective {m n : NameMap α} (h : m.entries = n.entries) : m = n := by
  cases m; cases n; cases h; rfl

def empty : NameMap α := ⟨[], .nil⟩

instance : EmptyCollection (NameMap α) := ⟨empty⟩

instance : Inhabited (NameMap α) := ⟨∅⟩

def find? (m : NameMap α) (key : String) : Option α := m.entries.lookup key

def contains (m : NameMap α) (key : String) : Bool := (m.find? key).isSome

def isEmpty (m : NameMap α) : Bool := m.entries.isEmpty

def size (m : NameMap α) : Nat := m.entries.length

def keys (m : NameMap α) : List String := m.entries.map (·.1)

@[simp] theorem find?_empty (key : String) : (∅ : NameMap α).find? key = none := rfl

/-- Puts an entry in its place, replacing one with the same key. -/
def insertEntry (key : String) (value : α) : List (String × α) → List (String × α)
  | [] => [(key, value)]
  | entry :: rest =>
    if key < entry.1 then (key, value) :: entry :: rest
    else if entry.1 < key then entry :: insertEntry key value rest
    else (key, value) :: rest

theorem mem_insertEntry {key : String} {value : α} {list : List (String × α)}
    {entry : String × α} (h : entry ∈ insertEntry key value list) :
    entry = (key, value) ∨ entry ∈ list := by
  induction list with
  | nil => simpa [insertEntry] using h
  | cons head rest ih =>
    simp only [insertEntry] at h
    split at h
    · simpa using h
    · split at h
      · rcases List.mem_cons.mp h with h | h
        · exact .inr (h ▸ List.mem_cons_self)
        · exact (ih h).imp id (List.mem_cons_of_mem _)
      · exact (List.mem_cons.mp h).imp id (List.mem_cons_of_mem _)

theorem pairwise_insertEntry (key : String) (value : α) {list : List (String × α)}
    (h : list.Pairwise (·.1 < ·.1)) : (insertEntry key value list).Pairwise (·.1 < ·.1) := by
  induction list with
  | nil => simp [insertEntry]
  | cons head rest ih =>
    obtain ⟨below, tail⟩ := List.pairwise_cons.mp h
    simp only [insertEntry]
    split
    · rename_i before
      refine List.pairwise_cons.mpr ⟨fun entry mem => ?_, h⟩
      rcases List.mem_cons.mp mem with rfl | mem
      · exact before
      · exact String.lt_trans before (below entry mem)
    · rename_i notBefore
      split
      · rename_i after
        refine List.pairwise_cons.mpr ⟨fun entry mem => ?_, ih tail⟩
        rcases mem_insertEntry mem with rfl | mem
        · exact after
        · exact below entry mem
      · rename_i notAfter
        have same : key = head.1 := String.le_antisymm notAfter notBefore
        exact List.pairwise_cons.mpr ⟨fun entry mem => same ▸ below entry mem, tail⟩

def insert (m : NameMap α) (key : String) (value : α) : NameMap α :=
  ⟨insertEntry key value m.entries, pairwise_insertEntry key value m.sorted⟩

theorem lookup_cons (key name : String) (value : α) (rest : List (String × α)) :
    ((name, value) :: rest).lookup key = if key = name then some value else rest.lookup key := by
  by_cases h : key = name <;> simp [List.lookup_cons, h, beq_false_of_ne]

theorem lookup_insertEntry (key other : String) (value : α) (list : List (String × α)) :
    (insertEntry key value list).lookup other =
      if other = key then some value else list.lookup other := by
  induction list with
  | nil => by_cases h : other = key <;> simp [insertEntry, lookup_cons, h]
  | cons head rest ih =>
    obtain ⟨name, stored⟩ := head
    simp only [insertEntry]
    split
    · by_cases h : other = key <;> simp [lookup_cons, h]
    · rename_i notBefore
      split
      · rename_i after
        by_cases h : other = name
        · subst h
          have : other ≠ key := fun e => String.lt_irrefl other (e ▸ after)
          simp [this]
        · simp [lookup_cons, h, ih]
      · rename_i notAfter
        have same : key = name := String.le_antisymm notAfter notBefore
        subst same
        by_cases h : other = key <;> simp [lookup_cons, h]

@[simp] theorem find?_insert (m : NameMap α) (key other : String) (value : α) :
    (m.insert key value).find? other = if other = key then some value else m.find? other :=
  lookup_insertEntry key other value m.entries

def ofList (entries : List (String × α)) : NameMap α :=
  entries.foldl (fun m entry => m.insert entry.1 entry.2) ∅

def filterMap (m : NameMap α) (f : String → α → Option β) : NameMap β :=
  ⟨m.entries.filterMap fun entry => (f entry.1 entry.2).map (entry.1, ·), by
    refine m.sorted.filterMap _ fun a a' h b hb b' hb' => ?_
    obtain ⟨_, _, rfl⟩ := Option.map_eq_some_iff.mp hb
    obtain ⟨_, _, rfl⟩ := Option.map_eq_some_iff.mp hb'
    exact h⟩

/-- The keys of both maps, with their values combined. -/
def intersectWith (f : α → β → γ) (m : NameMap α) (n : NameMap β) : NameMap γ :=
  m.filterMap fun key a => (n.find? key).map (f a)

theorem lookup_eq_none_of_lt {key : String} {list : List (String × α)}
    (h : ∀ entry ∈ list, key < entry.1) : list.lookup key = none := by
  induction list with
  | nil => rfl
  | cons head rest ih =>
    obtain ⟨name, value⟩ := head
    have apart : key ≠ name := fun e =>
      String.lt_irrefl key (e ▸ h (name, value) List.mem_cons_self)
    rw [lookup_cons, if_neg apart, ih fun entry mem => h entry (List.mem_cons_of_mem _ mem)]

theorem lookup_filterMap (f : String → α → Option β) {list : List (String × α)}
    (h : list.Pairwise (·.1 < ·.1)) (key : String) :
    (list.filterMap fun entry => (f entry.1 entry.2).map (entry.1, ·)).lookup key =
      (list.lookup key).bind (f key) := by
  induction list with
  | nil => rfl
  | cons head rest ih =>
    obtain ⟨name, value⟩ := head
    obtain ⟨below, tail⟩ := List.pairwise_cons.mp h
    by_cases same : key = name
    · subst same
      have absent : rest.lookup key = none := lookup_eq_none_of_lt below
      cases kept : f key value <;> simp [kept, ih tail, absent]
    · cases kept : f name value <;> simp [lookup_cons, kept, same, ih tail]

@[simp] theorem find?_filterMap (m : NameMap α) (f : String → α → Option β) (key : String) :
    (m.filterMap f).find? key = (m.find? key).bind (f key) :=
  lookup_filterMap f m.sorted key

theorem find?_intersectWith (f : α → β → γ) (m : NameMap α) (n : NameMap β) (key : String) :
    (m.intersectWith f n).find? key =
      (m.find? key).bind fun a => (n.find? key).map (f a) := by
  simp [intersectWith]

theorem mem_iff_lookup {list : List (String × α)} (h : list.Pairwise (·.1 < ·.1)) {key : String}
    {value : α} : (key, value) ∈ list ↔ list.lookup key = some value := by
  induction list with
  | nil => simp
  | cons head rest ih =>
    obtain ⟨name, stored⟩ := head
    obtain ⟨below, tail⟩ := List.pairwise_cons.mp h
    by_cases same : key = name
    · subst same
      have absent : (key, value) ∉ rest := fun mem => String.lt_irrefl key (below _ mem)
      simp [absent, eq_comm]
    · simp [lookup_cons, same, ih tail]

theorem mem_entries_iff {m : NameMap α} {key : String} {value : α} :
    (key, value) ∈ m.entries ↔ m.find? key = some value :=
  mem_iff_lookup m.sorted

theorem nodup_keys (m : NameMap α) : m.keys.Nodup := by
  refine List.pairwise_map.mpr (m.sorted.imp fun {a b} h hEq => ?_)
  exact String.lt_irrefl b.1 (hEq ▸ h)

theorem entries_eq_of_lookup_eq {list other : List (String × α)}
    (hl : list.Pairwise (·.1 < ·.1)) (ho : other.Pairwise (·.1 < ·.1))
    (h : ∀ key, list.lookup key = other.lookup key) : list = other := by
  induction list generalizing other with
  | nil =>
    cases other with
    | nil => rfl
    | cons head rest =>
      obtain ⟨name, value⟩ := head
      simpa [lookup_cons] using h name
  | cons head rest ih =>
    obtain ⟨name, value⟩ := head
    obtain ⟨below, tail⟩ := List.pairwise_cons.mp hl
    cases other with
    | nil => simpa [lookup_cons] using h name
    | cons head' rest' =>
      obtain ⟨name', value'⟩ := head'
      obtain ⟨below', tail'⟩ := List.pairwise_cons.mp ho
      have notBefore : ¬ name < name' := fun before => by
        have : ((name', value') :: rest').lookup name = none :=
          lookup_eq_none_of_lt fun entry mem => by
            rcases List.mem_cons.mp mem with rfl | mem
            · exact before
            · exact String.lt_trans before (below' entry mem)
        simpa [lookup_cons, this] using h name
      have notAfter : ¬ name' < name := fun after => by
        have : ((name, value) :: rest).lookup name' = none :=
          lookup_eq_none_of_lt fun entry mem => by
            rcases List.mem_cons.mp mem with rfl | mem
            · exact after
            · exact String.lt_trans after (below entry mem)
        have := this ▸ h name'
        simp at this
      have same : name = name' := String.le_antisymm notAfter notBefore
      subst same
      have values : value = value' := by simpa [lookup_cons] using h name
      subst values
      refine congrArg _ (ih tail tail' fun key => ?_)
      by_cases apart : key = name
      · subst apart
        rw [lookup_eq_none_of_lt below, lookup_eq_none_of_lt below']
      · simpa [lookup_cons, apart] using h key

theorem ext_find? {m n : NameMap α} (h : ∀ key, m.find? key = n.find? key) : m = n :=
  entries_injective (entries_eq_of_lookup_eq m.sorted n.sorted h)

end NameMap

end DelegateSafety
