/-!
# Tables

A table maps texts to values and lists its entries in ascending order of their
keys.  The order is that of the code points, which is also the order of the
UTF-8 octets.  A key occurs once, so two tables that answer every look-up alike
are equal (`Table.ext_find?`), and insertions under different keys commute.
-/

namespace RemoteCall

universe u v

/-- A finite map from texts, kept in ascending order. -/
structure Table (α : Type u) where
  entries : List (String × α)
  ascending : entries.Pairwise fun a b => a.1 < b.1

namespace Table

variable {α : Type u} {β : Type v}

/-- The table without entries. -/
def empty : Table α :=
  ⟨[], .nil⟩

instance : Inhabited (Table α) :=
  ⟨empty⟩

/-! ## Ascending lists of entries -/

/-- Puts an entry in its place, where it takes the place of one with the same key. -/
def insertEntry (key : String) (value : α) : List (String × α) → List (String × α)
  | [] => [(key, value)]
  | entry :: rest =>
    if key < entry.1 then (key, value) :: entry :: rest
    else if key = entry.1 then (key, value) :: rest
    else entry :: insertEntry key value rest

theorem eq_or_mem_of_mem_insertEntry {key : String} {value : α} {entry : String × α}
    {entries : List (String × α)} (h : entry ∈ insertEntry key value entries) :
    entry = (key, value) ∨ entry ∈ entries := by
  induction entries with
  | nil => simpa [insertEntry] using h
  | cons first rest ih =>
    rw [insertEntry] at h
    split at h
    · simpa using h
    · split at h
      · rcases List.mem_cons.1 h with h | h
        · exact .inl h
        · exact .inr (List.mem_cons_of_mem _ h)
      · rcases List.mem_cons.1 h with h | h
        · exact .inr (h ▸ List.mem_cons_self)
        · exact (ih h).imp_right (List.mem_cons_of_mem _)

theorem insertEntry_ascending (key : String) (value : α) {entries : List (String × α)}
    (ascending : entries.Pairwise fun a b => a.1 < b.1) :
    (insertEntry key value entries).Pairwise fun a b => a.1 < b.1 := by
  induction entries with
  | nil => simp [insertEntry]
  | cons first rest ih =>
    have ⟨after, restAscending⟩ := List.pairwise_cons.1 ascending
    rw [insertEntry]
    split
    next before =>
      refine List.pairwise_cons.2 ⟨fun entry mem => ?_, ascending⟩
      rcases List.mem_cons.1 mem with rfl | mem
      · exact before
      · exact String.lt_trans before (after entry mem)
    next notBefore =>
      split
      next same =>
        refine List.pairwise_cons.2 ⟨fun entry mem => ?_, restAscending⟩
        exact same ▸ after entry mem
      next different =>
        refine List.pairwise_cons.2 ⟨fun entry mem => ?_, ih restAscending⟩
        rcases eq_or_mem_of_mem_insertEntry mem with rfl | mem
        · exact Std.lt_of_le_of_ne (String.not_lt.1 notBefore) (Ne.symm different)
        · exact after entry mem

/-- The value under a key, in any list of entries. -/
def lookup (key : String) : List (String × α) → Option α
  | [] => none
  | entry :: rest => if key = entry.1 then some entry.2 else lookup key rest

theorem lookup_eq_none_of_lt {key : String} {entries : List (String × α)}
    (before : ∀ entry ∈ entries, key < entry.1) : lookup key entries = none := by
  induction entries with
  | nil => rfl
  | cons first rest ih =>
    have different : key ≠ first.1 := fun same =>
      String.lt_irrefl key (same ▸ before first List.mem_cons_self)
    rw [lookup, if_neg different]
    exact ih fun entry mem => before entry (List.mem_cons_of_mem _ mem)

theorem lookup_insertEntry (key other : String) (value : α) (entries : List (String × α)) :
    lookup other (insertEntry key value entries)
      = if other = key then some value else lookup other entries := by
  induction entries with
  | nil => simp [insertEntry, lookup]
  | cons first rest ih =>
    rw [insertEntry]
    split
    · simp [lookup]
    · split
      next same =>
        by_cases h : other = first.1
        · simp [lookup, h, same]
        · simp [lookup, h, same ▸ h]
      next different =>
        by_cases h : other = first.1
        · have : other ≠ key := fun same => different (same ▸ h)
          simp [lookup, h, Ne.symm different]
        · simp [lookup, h, ih]

/-- Ascending entries are determined by their look-ups. -/
theorem entries_eq_of_lookup {left right : List (String × α)}
    (leftAscending : left.Pairwise fun a b => a.1 < b.1)
    (rightAscending : right.Pairwise fun a b => a.1 < b.1)
    (same : ∀ key, lookup key left = lookup key right) : left = right := by
  induction left generalizing right with
  | nil =>
    cases right with
    | nil => rfl
    | cons first rest => simpa [lookup] using same first.1
  | cons first rest ih =>
    have ⟨after, restAscending⟩ := List.pairwise_cons.1 leftAscending
    cases right with
    | nil => simpa [lookup] using same first.1
    | cons first' rest' =>
      have ⟨after', restAscending'⟩ := List.pairwise_cons.1 rightAscending
      have notBefore : ¬ first.1 < first'.1 := fun before => by
        have absent : lookup first.1 (first' :: rest') = none :=
          lookup_eq_none_of_lt fun entry mem => by
            rcases List.mem_cons.1 mem with rfl | mem
            · exact before
            · exact String.lt_trans before (after' entry mem)
        have found := same first.1
        rw [absent, lookup, if_pos rfl] at found
        cases found
      have notAfter : ¬ first'.1 < first.1 := fun before => by
        have absent : lookup first'.1 (first :: rest) = none :=
          lookup_eq_none_of_lt fun entry mem => by
            rcases List.mem_cons.1 mem with rfl | mem
            · exact before
            · exact String.lt_trans before (after entry mem)
        have found := same first'.1
        rw [absent, lookup, if_pos rfl] at found
        cases found
      have keys : first.1 = first'.1 :=
        String.le_antisymm (String.not_lt.1 notAfter) (String.not_lt.1 notBefore)
      have values : first.2 = first'.2 := by simpa [lookup, keys] using same first.1
      have rests : rest = rest' := by
        refine ih restAscending restAscending' fun key => ?_
        by_cases h : key = first.1
        · rw [lookup_eq_none_of_lt fun entry mem => h ▸ after entry mem,
            lookup_eq_none_of_lt fun entry mem => (h.trans keys) ▸ after' entry mem]
        · simpa [lookup, h, keys ▸ h] using same key
      rw [rests, Prod.ext keys values]

/-! ## Operations -/

/-- The value under a key. -/
def find? (table : Table α) (key : String) : Option α :=
  lookup key table.entries

/-- Whether a key has a value. -/
def contains (table : Table α) (key : String) : Bool :=
  (table.find? key).isSome

/-- Puts a value under a key, in place of the one that may stand there. -/
def insert (table : Table α) (key : String) (value : α) : Table α :=
  ⟨insertEntry key value table.entries, insertEntry_ascending key value table.ascending⟩

/-- The keys, ascending. -/
def keys (table : Table α) : List String :=
  table.entries.map Prod.fst

/-- How many keys have a value. -/
def size (table : Table α) : Nat :=
  table.entries.length

/-- The table of the images of all values. -/
def map (f : α → β) (table : Table α) : Table β :=
  ⟨table.entries.map fun entry => (entry.1, f entry.2), by
    rw [List.pairwise_map]
    exact table.ascending⟩

/-! ## Laws -/

@[simp]
theorem find?_empty (key : String) : (empty : Table α).find? key = none :=
  rfl

theorem find?_insert (table : Table α) (key other : String) (value : α) :
    (table.insert key value).find? other
      = if other = key then some value else table.find? other :=
  lookup_insertEntry key other value table.entries

@[simp]
theorem find?_insert_self (table : Table α) (key : String) (value : α) :
    (table.insert key value).find? key = some value := by
  simp [find?_insert]

/-- Tables that answer every look-up alike are equal. -/
theorem ext_find? {left right : Table α} (same : ∀ key, left.find? key = right.find? key) :
    left = right := by
  obtain ⟨left, leftAscending⟩ := left
  obtain ⟨right, rightAscending⟩ := right
  have : left = right := entries_eq_of_lookup leftAscending rightAscending same
  subst this
  rfl

/-- Insertions under different keys commute. -/
theorem insert_comm (table : Table α) {key other : String} (different : key ≠ other)
    (value value' : α) :
    (table.insert key value).insert other value' =
      (table.insert other value').insert key value := by
  refine ext_find? fun k => ?_
  by_cases h : k = key
  · simp [find?_insert, h, different]
  · simp [find?_insert, h]

theorem lookup_eq_some_of_mem {entries : List (String × α)}
    (ascending : entries.Pairwise fun a b => a.1 < b.1) {entry : String × α}
    (mem : entry ∈ entries) : lookup entry.1 entries = some entry.2 := by
  induction entries with
  | nil => cases mem
  | cons first rest ih =>
    have ⟨after, restAscending⟩ := List.pairwise_cons.1 ascending
    rcases List.mem_cons.1 mem with rfl | mem
    · simp [lookup]
    · have different : entry.1 ≠ first.1 := fun same =>
        String.lt_irrefl first.1 (same ▸ after entry mem)
      simp [lookup, different, ih restAscending mem]

theorem mem_of_lookup {key : String} {value : α} {entries : List (String × α)}
    (found : lookup key entries = some value) : (key, value) ∈ entries := by
  induction entries with
  | nil => simp [lookup] at found
  | cons first rest ih =>
    rw [lookup] at found
    split at found
    next same =>
      obtain rfl := Option.some.inj found
      exact same ▸ List.mem_cons_self
    next => exact List.mem_cons_of_mem _ (ih found)

/-- A look-up finds exactly the entries. -/
theorem find?_eq_some_iff {table : Table α} {key : String} {value : α} :
    table.find? key = some value ↔ (key, value) ∈ table.entries :=
  ⟨mem_of_lookup, fun mem => lookup_eq_some_of_mem table.ascending mem⟩

theorem size_eq_zero_iff {table : Table α} : table.size = 0 ↔ ∀ key, table.find? key = none := by
  rw [size, List.length_eq_zero_iff]
  constructor
  · intro none key
    rw [find?, none, lookup]
  · intro absent
    cases entries : table.entries with
    | nil => rfl
    | cons first rest =>
      have found : table.find? first.1 = some first.2 :=
        find?_eq_some_iff.2 (entries ▸ List.mem_cons_self)
      rw [absent first.1] at found
      cases found

/-! ## Keys -/

theorem keys_ascending (table : Table α) : table.keys.Pairwise (· < ·) := by
  rw [keys, List.pairwise_map]
  exact table.ascending

theorem keys_nodup (table : Table α) : table.keys.Nodup := by
  refine table.keys_ascending.imp ?_
  rintro key _ before rfl
  exact String.lt_irrefl key before

theorem mem_keys_iff {table : Table α} {key : String} :
    key ∈ table.keys ↔ ∃ value, table.find? key = some value := by
  simp [keys, find?_eq_some_iff]

theorem keys_map (f : α → β) (table : Table α) : (table.map f).keys = table.keys := by
  simp [keys, map]

theorem find?_map (f : α → β) (table : Table α) (key : String) :
    (table.map f).find? key = (table.find? key).map f := by
  rcases table with ⟨entries, ascending⟩
  simp only [find?, map]
  clear ascending
  induction entries with
  | nil => rfl
  | cons first rest ih =>
    rw [List.map_cons, lookup, lookup, ih]
    split
    · rfl
    · rfl

end Table

end RemoteCall
