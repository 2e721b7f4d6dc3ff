/-!
# Maps that remember the order of their keys

A document, a configuration and an option bag all list their entries in an
order that the output shows. An `OrderedMap` is that list, together with the
fact that no key occurs twice.

Writing a key that is present keeps its place; writing a new one appends it.
`moveLast` is the one operation that changes a place: the key leaves it and
is appended again with its new value. What each operation does to the list of
keys is stated beside it (`keys_put`, `keys_drop`), and lookup after a write
is `find?_put_self` and `find?_put_of_ne`.
-/

namespace ClientGen

/-- An entry list: keys with their values, in order. -/
abbrev Entries (α : Type) := List (String × α)

namespace Entries

variable {α : Type}

/-- The keys, in order. -/
def keys (es : Entries α) : List String := es.map Prod.fst

/-- The value of the first entry with this key. -/
def find? : Entries α → String → Option α
  | [], _ => none
  | (k, v) :: es, key => if k = key then some v else find? es key

/-- Overwrites the value of a key in place, or appends the entry. -/
def put : Entries α → String → α → Entries α
  | [], key, value => [(key, value)]
  | (k, v) :: es, key, value =>
    if k = key then (k, value) :: es else (k, v) :: put es key value

/-- Removes every entry with this key. -/
def drop (es : Entries α) (key : String) : Entries α :=
  es.filter (fun e => e.1 ≠ key)

/-- **Writing adds a key only at the end.** A present key keeps its place. -/
theorem keys_put (es : Entries α) (key : String) (value : α) :
    (es.put key value).keys = if key ∈ es.keys then es.keys else es.keys ++ [key] := by
  induction es with
  | nil => simp [put, keys]
  | cons e es ih =>
    obtain ⟨k, v⟩ := e
    by_cases h : k = key
    · simp [put, keys, h]
    · have hk : key ≠ k := fun hk => h hk.symm
      simp only [keys] at ih
      simp only [put, if_neg h, keys, List.map_cons, List.mem_cons, hk, false_or, ih]
      by_cases hm : key ∈ es.map Prod.fst <;> simp [hm]

/-- Dropping a key drops it from the list of keys. -/
theorem keys_drop (es : Entries α) (key : String) :
    (es.drop key).keys = es.keys.filter (fun k => k ≠ key) := by
  simp only [keys, drop, List.filter_map]
  rfl

/-- A key reads back what was last written to it. -/
theorem find?_put_self (es : Entries α) (key : String) (value : α) :
    (es.put key value).find? key = some value := by
  induction es with
  | nil => simp [put, find?]
  | cons e es ih =>
    obtain ⟨k, v⟩ := e
    by_cases h : k = key <;> simp [put, find?, h, ih]

/-- A write is seen at its own key only. -/
theorem find?_put_of_ne (es : Entries α) {key other : String} (value : α) (h : key ≠ other) :
    (es.put key value).find? other = es.find? other := by
  induction es with
  | nil => simp [put, find?, h]
  | cons e es ih =>
    obtain ⟨k, v⟩ := e
    by_cases hk : k = key
    · subst hk; simp [put, find?, h]
    · simp [put, find?, hk, ih]

/-- A new key is written at the end. -/
theorem put_of_notMem {es : Entries α} {key : String} (value : α) (h : key ∉ es.keys) :
    es.put key value = es ++ [(key, value)] := by
  induction es with
  | nil => rfl
  | cons e es ih =>
    obtain ⟨k, v⟩ := e
    simp only [keys, List.map_cons, List.mem_cons, not_or] at h
    rw [put, if_neg (Ne.symm h.1), ih h.2]
    rfl

/-- A key that is not there has no value. -/
theorem find?_eq_none {es : Entries α} {key : String} (h : key ∉ es.keys) :
    es.find? key = none := by
  induction es with
  | nil => rfl
  | cons e es ih =>
    obtain ⟨k, v⟩ := e
    simp only [keys, List.map_cons, List.mem_cons, not_or] at h
    rw [find?, if_neg (Ne.symm h.1), ih h.2]

/-- What is found is an entry. -/
theorem mem_of_find?_eq_some {es : Entries α} {key : String} {value : α}
    (h : es.find? key = some value) : (key, value) ∈ es := by
  induction es with
  | nil => cases h
  | cons e es ih =>
    obtain ⟨k, v⟩ := e
    rw [find?] at h
    split at h
    · next hk =>
      cases h
      rw [hk]
      exact List.mem_cons_self
    · exact List.mem_cons_of_mem _ (ih h)

/-- A write adds no entry but its own. -/
theorem mem_of_mem_put {es : Entries α} {key : String} {value : α} {e : String × α}
    (h : e ∈ es.put key value) : e = (key, value) ∨ e ∈ es := by
  induction es with
  | nil => exact Or.inl (List.mem_singleton.mp h)
  | cons f es ih =>
    obtain ⟨k, v⟩ := f
    rw [put] at h
    split at h
    · next hk =>
      rw [hk] at h
      exact (List.mem_cons.mp h).imp_right (List.mem_cons_of_mem _)
    · rcases List.mem_cons.mp h with rfl | h
      · exact Or.inr List.mem_cons_self
      · exact (ih h).imp_right (List.mem_cons_of_mem _)

/-- Where keys are distinct, lookup finds exactly the entries. -/
theorem find?_eq_some_iff {es : Entries α} (h : es.keys.Nodup) {key : String} {value : α} :
    es.find? key = some value ↔ (key, value) ∈ es := by
  induction es with
  | nil => simp [find?]
  | cons e es ih =>
    obtain ⟨k, v⟩ := e
    simp only [keys, List.map_cons, List.nodup_cons] at h
    by_cases hk : k = key
    · subst hk
      have hnot : (k, value) ∉ es := fun hm => h.1 (List.mem_map_of_mem hm)
      simp [find?, hnot, eq_comm]
    · have hk' : key ≠ k := fun hk' => hk hk'.symm
      simp [find?, hk, hk', ih h.2]

end Entries

/-- **A map in insertion order**: a list of entries whose keys are distinct. -/
structure OrderedMap (α : Type) where
  /-- The entries, in order. -/
  entries : Entries α := []
  /-- No key occurs twice. -/
  distinct : entries.keys.Nodup := by exact List.nodup_nil

namespace OrderedMap

variable {α : Type}

/-- The map without entries. -/
def empty : OrderedMap α := {}

instance : Inhabited (OrderedMap α) := ⟨empty⟩

instance [DecidableEq α] : DecidableEq (OrderedMap α) := fun a b =>
  if h : a.entries = b.entries then
    isTrue (by cases a; cases b; cases h; rfl)
  else
    isFalse (fun hab => h (congrArg entries hab))

/-- The keys, in order. -/
def keys (m : OrderedMap α) : List String := m.entries.keys

/-- The values, in the order of their keys. -/
def values (m : OrderedMap α) : List α := m.entries.map Prod.snd

/-- The number of entries. -/
def size (m : OrderedMap α) : Nat := m.entries.length

/-- The value of a key, if it has one. -/
def find? (m : OrderedMap α) (key : String) : Option α := m.entries.find? key

/-- Writes a key: in place if it is present, at the end if it is new. -/
def put (m : OrderedMap α) (key : String) (value : α) : OrderedMap α where
  entries := m.entries.put key value
  distinct := by
    rw [Entries.keys_put]
    split
    · exact m.distinct
    · next h =>
      refine List.nodup_append.mpr ⟨m.distinct, by simp, fun a ha b hb hab => h ?_⟩
      rw [List.mem_singleton.mp hb] at hab
      exact hab ▸ ha

/-- Removes a key, keeping the order of the others. -/
def erase (m : OrderedMap α) (key : String) : OrderedMap α where
  entries := m.entries.drop key
  distinct := by rw [Entries.keys_drop]; exact m.distinct.filter _

/-- Writes a key at the end, whether or not it was present. -/
def moveLast (m : OrderedMap α) (key : String) (value : α) : OrderedMap α :=
  (m.erase key).put key value

/-- Writes a list of entries in turn: a repeated key keeps its first place and
takes its last value. -/
def putAll (m : OrderedMap α) (es : Entries α) : OrderedMap α :=
  es.foldl (fun m e => m.put e.1 e.2) m

/-- The map that an entry list writes. -/
def ofEntries (es : Entries α) : OrderedMap α := empty.putAll es

/-- A map is its list of entries. -/
theorem eq_of_entries {a b : OrderedMap α} (h : a.entries = b.entries) : a = b := by
  cases a
  cases b
  cases h
  rfl

/-- Writing new, distinct keys appends their entries. -/
theorem entries_putAll {m : OrderedMap α} {es : Entries α}
    (h : (m.entries.keys ++ es.keys).Nodup) :
    (m.putAll es).entries = m.entries ++ es := by
  induction es generalizing m with
  | nil => simp [putAll]
  | cons e es ih =>
    obtain ⟨k, v⟩ := e
    have hk : k ∉ m.entries.keys := fun hk =>
      (List.nodup_append.mp h).2.2 k hk k List.mem_cons_self rfl
    have hput : (m.put k v).entries = m.entries ++ [(k, v)] := Entries.put_of_notMem v hk
    show ((m.put k v).putAll es).entries = _
    rw [ih (by simpa [hput, Entries.keys] using h), hput, List.append_assoc]
    rfl

/-- The map written by distinct keys has just their entries. -/
theorem entries_ofEntries {es : Entries α} (h : es.keys.Nodup) : (ofEntries es).entries = es :=
  entries_putAll h

/-- What a map holds after writes was there before or was written. -/
theorem mem_of_mem_putAll {es : Entries α} {m : OrderedMap α} {e : String × α}
    (h : e ∈ (m.putAll es).entries) : e ∈ m.entries ∨ e ∈ es := by
  induction es generalizing m with
  | nil => exact Or.inl h
  | cons f es ih =>
    rcases @ih (m.put f.1 f.2) h with h | h
    · rcases Entries.mem_of_mem_put h with rfl | h
      · exact Or.inr List.mem_cons_self
      · exact Or.inl h
    · exact Or.inr (List.mem_cons_of_mem _ h)

/-- The entries of a map are entries that were written to it. -/
theorem mem_of_mem_ofEntries {es : Entries α} {e : String × α} (h : e ∈ (ofEntries es).entries) :
    e ∈ es :=
  (mem_of_mem_putAll h).resolve_left List.not_mem_nil

/-- Lookup finds exactly the entries. -/
theorem find?_eq_some_iff {m : OrderedMap α} {key : String} {value : α} :
    m.find? key = some value ↔ (key, value) ∈ m.entries :=
  Entries.find?_eq_some_iff m.distinct

end OrderedMap

end ClientGen
