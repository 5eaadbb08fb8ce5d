/-!
# Maps from text keys

A `KeyMap` keeps its entries in strictly increasing key order, the order in which names and
members are listed everywhere. `get?_insert` and `get?_erase` say what the two updates do to a
lookup, `ext_get?` that the lookups determine the map.
-/

namespace FeatureGate

/-- Puts an entry at its place in an ordered list, replacing the entry of the same key. -/
def insertEntry {α : Type} (key : String) (value : α) :
    List (String × α) → List (String × α)
  | [] => [(key, value)]
  | (k, v) :: rest =>
    if key < k then (key, value) :: (k, v) :: rest
    else if key = k then (key, value) :: rest
    else (k, v) :: insertEntry key value rest

/-- Entries in strictly increasing key order. -/
abbrev KeysIncrease {α : Type} (entries : List (String × α)) : Prop :=
  entries.Pairwise fun a b => a.1 < b.1

/-- The value of the first entry with the given key. -/
def findEntry {α : Type} (key : String) : List (String × α) → Option α
  | [] => none
  | (k, v) :: rest => if k = key then some v else findEntry key rest

theorem key_lt_of_not_lt {a b : String} (h : ¬ a < b) (ne : a ≠ b) : b < a :=
  Decidable.byContradiction fun h' =>
    ne (String.le_antisymm (String.not_lt.mp h') (String.not_lt.mp h))

theorem mem_insertEntry {α : Type} {key : String} {value : α} {e : String × α}
    {entries : List (String × α)} (h : e ∈ insertEntry key value entries) :
    e = (key, value) ∨ e ∈ entries := by
  induction entries with
  | nil => simpa [insertEntry] using h
  | cons entry rest ih =>
    obtain ⟨k, v⟩ := entry
    rw [insertEntry] at h
    split at h
    · simpa using h
    · split at h
      · rcases List.mem_cons.mp h with h | h
        · exact .inl h
        · exact .inr (List.mem_cons_of_mem _ h)
      · rcases List.mem_cons.mp h with h | h
        · exact .inr (h ▸ List.mem_cons_self)
        · rcases ih h with h | h
          · exact .inl h
          · exact .inr (List.mem_cons_of_mem _ h)

theorem KeysIncrease.insertEntry {α : Type} {entries : List (String × α)}
    (h : KeysIncrease entries) (key : String) (value : α) :
    KeysIncrease (insertEntry key value entries) := by
  induction entries with
  | nil => simp [KeysIncrease, FeatureGate.insertEntry]
  | cons entry rest ih =>
    obtain ⟨k, v⟩ := entry
    have ⟨above, tail⟩ := List.pairwise_cons.mp h
    rw [FeatureGate.insertEntry]
    split
    · rename_i less
      refine List.pairwise_cons.mpr ⟨fun e he => ?_, h⟩
      rcases List.mem_cons.mp he with rfl | he
      · exact less
      · exact String.lt_trans less (above e he)
    · rename_i notLess
      split
      · rename_i same
        exact List.pairwise_cons.mpr ⟨fun e he => same ▸ above e he, tail⟩
      · rename_i differs
        refine List.pairwise_cons.mpr ⟨fun e he => ?_, ih tail⟩
        rcases mem_insertEntry he with rfl | he
        · exact key_lt_of_not_lt notLess differs
        · exact above e he

theorem findEntry_insertEntry {α : Type} (key : String) (value : α) (other : String)
    (entries : List (String × α)) :
    findEntry other (insertEntry key value entries) =
      if key = other then some value else findEntry other entries := by
  induction entries with
  | nil => simp [insertEntry, findEntry]
  | cons entry rest ih =>
    obtain ⟨k, v⟩ := entry
    rw [insertEntry]
    split
    · simp [findEntry]
    · split
      · rename_i same
        subst same
        by_cases h : key = other <;> simp [findEntry, h]
      · rename_i differs
        by_cases h : k = other
        · subst h
          simp [findEntry, differs]
        · simp [findEntry, h, ih]

/-- A map from text keys whose entries are listed in increasing key order. -/
structure KeyMap (α : Type) where
  entries : List (String × α)
  ordered : KeysIncrease entries

namespace KeyMap

variable {α : Type}

def empty : KeyMap α := ⟨[], .nil⟩

instance : EmptyCollection (KeyMap α) := ⟨empty⟩

instance : Inhabited (KeyMap α) := ⟨empty⟩

def get? (m : KeyMap α) (key : String) : Option α := findEntry key m.entries

def contains (m : KeyMap α) (key : String) : Bool := (m.get? key).isSome

def insert (m : KeyMap α) (key : String) (value : α) : KeyMap α :=
  ⟨insertEntry key value m.entries, m.ordered.insertEntry key value⟩

def erase (m : KeyMap α) (key : String) : KeyMap α :=
  ⟨m.entries.filter fun e => e.1 != key, m.ordered.filter _⟩

def keys (m : KeyMap α) : List String := m.entries.map Prod.fst

def size (m : KeyMap α) : Nat := m.entries.length

/-- Inserts the entries in turn, so that the last value of a repeated key stays. -/
def insertMany (m : KeyMap α) (entries : List (String × α)) : KeyMap α :=
  entries.foldl (fun m e => m.insert e.1 e.2) m

def ofList (entries : List (String × α)) : KeyMap α := empty.insertMany entries

/-- The map with a function applied to every value. -/
def map {β : Type} (f : α → β) (m : KeyMap α) : KeyMap β :=
  ⟨m.entries.map fun e => (e.1, f e.2), List.pairwise_map.mpr m.ordered⟩

@[simp] theorem get?_empty (key : String) : (∅ : KeyMap α).get? key = none := rfl

theorem get?_insert (m : KeyMap α) (key : String) (value : α) (other : String) :
    (m.insert key value).get? other = if key = other then some value else m.get? other :=
  findEntry_insertEntry key value other m.entries

@[simp] theorem get?_insert_self (m : KeyMap α) (key : String) (value : α) :
    (m.insert key value).get? key = some value := by
  simp [get?_insert]

theorem findEntry_filter_ne (key other : String) (entries : List (String × α)) :
    findEntry other (entries.filter fun e => e.1 != key) =
      if key = other then none else findEntry other entries := by
  induction entries with
  | nil => simp [findEntry]
  | cons entry rest ih =>
    obtain ⟨k, v⟩ := entry
    by_cases hk : k = key
    · subst hk
      by_cases h : k = other <;> simp_all [findEntry]
    · by_cases h : k = other
      · subst h
        simp [findEntry, hk, Ne.symm hk]
      · simp_all [findEntry]

theorem get?_erase (m : KeyMap α) (key other : String) :
    (m.erase key).get? other = if key = other then none else m.get? other :=
  findEntry_filter_ne key other m.entries

theorem findEntry_eq_none_of_lt {key : String} {entries : List (String × α)}
    (h : ∀ e ∈ entries, key < e.1) : findEntry key entries = none := by
  induction entries with
  | nil => rfl
  | cons entry rest ih =>
    obtain ⟨k, v⟩ := entry
    have less : key < k := h (k, v) List.mem_cons_self
    have ne : k ≠ key := fun same => String.lt_irrefl key (same ▸ less)
    simp [findEntry, ne, ih fun e he => h e (List.mem_cons_of_mem _ he)]

theorem entries_eq_of_findEntry_eq {xs ys : List (String × α)} (hx : KeysIncrease xs)
    (hy : KeysIncrease ys) (h : ∀ key, findEntry key xs = findEntry key ys) : xs = ys := by
  induction xs generalizing ys with
  | nil =>
    cases ys with
    | nil => rfl
    | cons y ys => simpa [findEntry] using h y.1
  | cons x xs ih =>
    cases ys with
    | nil => simpa [findEntry] using h x.1
    | cons y ys =>
      obtain ⟨kx, vx⟩ := x
      obtain ⟨ky, vy⟩ := y
      have ⟨aboveX, tailX⟩ := List.pairwise_cons.mp hx
      have ⟨aboveY, tailY⟩ := List.pairwise_cons.mp hy
      have same : kx = ky := by
        refine String.le_antisymm (String.not_lt.mp fun less => ?_)
          (String.not_lt.mp fun less => ?_)
        · have absent : findEntry ky ((kx, vx) :: xs) = none :=
            findEntry_eq_none_of_lt fun e he => (List.mem_cons.mp he).elim (· ▸ less)
              fun he => String.lt_trans less (aboveX e he)
          rw [h ky] at absent
          simp [findEntry] at absent
        · have absent : findEntry kx ((ky, vy) :: ys) = none :=
            findEntry_eq_none_of_lt fun e he => (List.mem_cons.mp he).elim (· ▸ less)
              fun he => String.lt_trans less (aboveY e he)
          rw [← h kx] at absent
          simp [findEntry] at absent
      subst same
      have value : vx = vy := by simpa [findEntry] using h kx
      subst value
      rw [ih tailX tailY fun key => ?_]
      by_cases hk : kx = key
      · subst hk
        rw [findEntry_eq_none_of_lt aboveX, findEntry_eq_none_of_lt aboveY]
      · simpa [findEntry, hk] using h key

theorem mem_keys_iff (m : KeyMap α) (key : String) :
    key ∈ m.keys ↔ ∃ value, m.get? key = some value := by
  obtain ⟨entries, ordered⟩ := m
  simp only [keys, get?]
  clear ordered
  induction entries with
  | nil => simp [findEntry]
  | cons entry rest ih =>
    obtain ⟨k, v⟩ := entry
    by_cases h : k = key
    · simp [findEntry, h]
    · simp [findEntry, h, Ne.symm h, ih]

theorem nodup_keys (m : KeyMap α) : m.keys.Nodup := by
  refine List.pairwise_map.mpr (m.ordered.imp ?_)
  intro a b less same
  exact String.lt_irrefl b.1 (same ▸ less)

/-- A map with fewer keys is no larger, whatever its values are. -/
theorem size_le_of_keys {β : Type} {a : KeyMap α} {b : KeyMap β}
    (h : ∀ key value, a.get? key = some value → ∃ other, b.get? key = some other) :
    a.size ≤ b.size := by
  have sub : a.keys ⊆ b.keys := by
    intro key hk
    obtain ⟨value, hv⟩ := (a.mem_keys_iff key).mp hk
    exact (b.mem_keys_iff key).mpr (h key value hv)
  have le := a.nodup_keys.length_le_of_subset sub
  simpa only [keys, size, List.length_map] using le

theorem ext_get? {a b : KeyMap α} (h : ∀ key, a.get? key = b.get? key) : a = b := by
  obtain ⟨xs, hx⟩ := a
  obtain ⟨ys, hy⟩ := b
  have : xs = ys := entries_eq_of_findEntry_eq hx hy h
  subst this
  rfl

theorem mem_of_findEntry {key : String} {value : α} {entries : List (String × α)}
    (h : findEntry key entries = some value) : (key, value) ∈ entries := by
  induction entries with
  | nil => cases h
  | cons entry rest ih =>
    obtain ⟨k, v⟩ := entry
    rw [findEntry] at h
    split at h
    · rename_i same
      subst same
      obtain rfl := Option.some.inj h
      exact List.mem_cons_self
    · exact List.mem_cons_of_mem _ (ih h)

theorem findEntry_append (key : String) (xs ys : List (String × α)) :
    findEntry key (xs ++ ys) = (findEntry key xs).or (findEntry key ys) := by
  induction xs with
  | nil => rfl
  | cons entry rest ih =>
    obtain ⟨k, v⟩ := entry
    by_cases h : k = key <;> simp [findEntry, h, ih]

/-- After many insertions a key has the last value that was inserted for it. -/
theorem get?_insertMany (m : KeyMap α) (entries : List (String × α)) (key : String) :
    (m.insertMany entries).get? key = (findEntry key entries.reverse).or (m.get? key) := by
  induction entries generalizing m with
  | nil => rfl
  | cons e rest ih =>
    have step : m.insertMany (e :: rest) = (m.insert e.1 e.2).insertMany rest := rfl
    rw [step, ih, List.reverse_cons, findEntry_append, get?_insert, Option.or_assoc]
    by_cases h : e.1 = key <;> simp [findEntry, h]

theorem get?_ofList (entries : List (String × α)) (key : String) :
    (ofList entries).get? key = findEntry key entries.reverse := by
  have all := get?_insertMany empty entries key
  rwa [show empty.get? key = none from rfl, Option.or_none] at all

theorem findEntry_eq_some_iff {entries : List (String × α)} (h : (entries.map Prod.fst).Nodup)
    {key : String} {value : α} : findEntry key entries = some value ↔ (key, value) ∈ entries := by
  refine ⟨mem_of_findEntry, ?_⟩
  induction entries with
  | nil => nofun
  | cons entry rest ih =>
    obtain ⟨k, v⟩ := entry
    obtain ⟨fresh, distinct⟩ := List.nodup_cons.mp h
    intro member
    rcases List.mem_cons.mp member with same | later
    · obtain ⟨rfl, rfl⟩ := Prod.mk.inj same
      simp [findEntry]
    · have found : key ∈ rest.map Prod.fst := List.mem_map_of_mem later
      have differs : k ≠ key := by
        rintro rfl
        exact fresh found
      simp [findEntry, differs, ih distinct later]

theorem findEntry_reverse {entries : List (String × α)} (h : (entries.map Prod.fst).Nodup)
    (key : String) : findEntry key entries.reverse = findEntry key entries := by
  have reversed : (entries.reverse.map Prod.fst).Nodup := by
    rw [List.map_reverse]
    exact List.pairwise_reverse.mpr (h.imp Ne.symm)
  apply Option.ext
  intro value
  rw [findEntry_eq_some_iff reversed, findEntry_eq_some_iff h, List.mem_reverse]

theorem ofList_entries (m : KeyMap α) : ofList m.entries = m := by
  apply ext_get?
  intro key
  rw [get?_ofList, findEntry_reverse m.nodup_keys, get?]

theorem entries_insertMany (m : KeyMap α) (entries : List (String × α)) :
    (m.insertMany entries).entries =
      entries.foldl (fun es e => insertEntry e.1 e.2 es) m.entries := by
  induction entries generalizing m with
  | nil => rfl
  | cons e rest ih => exact ih (m.insert e.1 e.2)

theorem findEntry_map {β : Type} (f : α → β) (key : String) (entries : List (String × α)) :
    findEntry key (entries.map fun e => (e.1, f e.2)) = (findEntry key entries).map f := by
  induction entries with
  | nil => rfl
  | cons entry rest ih =>
    by_cases h : entry.1 = key <;> simp [findEntry, h, ih]

theorem get?_map {β : Type} (f : α → β) (m : KeyMap α) (key : String) :
    (m.map f).get? key = (m.get? key).map f :=
  findEntry_map f key m.entries

theorem map_insert {β : Type} (f : α → β) (m : KeyMap α) (key : String) (value : α) :
    (m.insert key value).map f = (m.map f).insert key (f value) := by
  apply ext_get?
  intro other
  rw [get?_map, get?_insert, get?_insert, get?_map]
  split <;> rfl

theorem size_map {β : Type} (f : α → β) (m : KeyMap α) : (m.map f).size = m.size :=
  List.length_map _

end KeyMap

end FeatureGate
