import ClientGen.Document.Printer
import ClientGen.Proofs.Nodes
import ClientGen.Schema.Reader
import Mathlib.Data.List.Nodup

/-!
# Writing what was read

A value that was read from a node is written, and the node of what was written is read
again: `Returns read write` says that this gives the value back, that the written node fits
where the first one fitted, and that nothing is written as a missing value that was not one.

The readers of a document are put together from few parts, and each part returns if what it
is made of returns: lists, maps, references, and the three kinds of field of a record. A
record is written as the fields that are present (`Json.present`). What its fields return is
collected by `Regains`, one field after the other, and `returns_record` makes one statement
about the whole of it.

So the round trip of a structure is settled by naming its fields, in the order in which the
reader asks for them, and how each of them is written: required, optional, with a default
that is written or with one that is not. Which of these a field is decides what its absence
means, and that is the one place where a round trip could lose something.
-/

namespace ClientGen

variable {α β : Type}

/-! ## Values

The notion, and the parts that are not records. Each statement is about one pair of a reader
and a writer, so a structure that is read in two places is settled once. -/

/-- **A written value stands for a value that was read from a node.**

That it is read back is the aim. That it fits the level of the node is what lets the reader
of a text accept it again. And that it is no `null` unless the node was one matters for the
fields around it: an optional field takes `null` for an absent value. -/
structure StandsFor (read : Tree → Option α) (n : Nat) (t : Tree) (a : α) (j : Json) : Prop where
  reads : read j.tree = some a
  fits : j.tree.Fits n
  null : j = .null → t = .scalar .null

/-- **What was read, written and read again is what it was.** The node that it was read from
is any that fits some number of levels, so the statement can be used inside lists and
records, where fewer are left. -/
def Returns (read : Tree → Option α) (write : α → Json) : Prop :=
  ∀ ⦃n t a⦄, t.Fits n → read t = some a → StandsFor read n t a (write a)

/-- Texts return. A text that was read is readable, so it can be written. -/
theorem returns_text : Returns Tree.text? .text := by
  intro n t s _ _
  exact ⟨rfl, Tree.fits_ofText s, nofun⟩

/-- Flags return. -/
theorem returns_bool : Returns Tree.bool? .bool := by
  intro n t b _ _
  exact ⟨rfl, Tree.fits_scalar.mpr trivial, nofun⟩

/-- Values that are carried as they are return, if they are whole or not: what is read from
a node is sorted, so reading it again leaves it alone. -/
theorem returns_json : Returns Tree.json? id := by
  intro n t j hfits hread
  obtain ⟨hreads, hfits, hnull⟩ := Tree.json?_tree hfits hread
  exact ⟨hreads, hfits, hnull⟩

section Parts

variable {read : Tree → Option α} {write : α → Json}

/-- **A list returns** if its items do. Only a list is read as one, and its items stand one
level deeper. -/
theorem Returns.listOf (h : Returns read write) :
    Returns (Tree.listOf? read) (fun as => .list (as.map write)) := by
  intro n t as hfits hread
  obtain ⟨items, hitems, has⟩ := Option.bind_eq_some_iff.mp hread
  have ht : t = .list items := by
    cases t with
    | list items' => exact congrArg Tree.list (Option.some.inj hitems)
    | scalar | record => cases hitems
  subst ht
  obtain ⟨m, rfl, hfits⟩ := Tree.fits_list.mp hfits
  -- Each item was read from a node one level deeper, and what is written for it fits there.
  have hone : ∀ a ∈ as, read (write a).tree = some a ∧ (write a).tree.Fits m := by
    intro a ha
    obtain ⟨u, hu, hua⟩ := exists_of_mapM_eq_some has ha
    exact ⟨(h (hfits u hu) hua).reads, (h (hfits u hu) hua).fits⟩
  refine ⟨?_, ?_, nofun⟩
  · rw [Json.tree_list, List.map_map]
    exact mapM_map_eq_self (fun a ha => (hone a ha).1)
  · rw [Json.tree_list, Tree.fits_list]
    exact ⟨m, rfl, List.forall_mem_map.mpr (List.forall_mem_map.mpr fun a ha => (hone a ha).2)⟩

/-- The fields of a map, each value written by `write`. -/
def writtenEntries (write : α → Json) (es : Entries α) : List (String × Json) :=
  es.map (fun e => (e.1, write e.2))

/-- The entries of a node are those of nodes inside it. What was an entry's key is not asked
for here: it is a text, and is written as it was read. -/
theorem exists_of_entriesOf? {t : Tree} {n : Nat} {es : Entries α} (hfits : t.Fits n)
    (h : t.entriesOf? read = some es) :
    ∃ m, n = m + 1 ∧ ∀ e ∈ es, ∃ u : Tree, u.Fits m ∧ read u = some e.2 := by
  obtain ⟨named, hnamed, hes⟩ := Option.bind_eq_some_iff.mp h
  cases t with
  | scalar | list => cases hnamed
  | record entries =>
    obtain ⟨m, rfl, hentries⟩ := Tree.fits_record.mp hfits
    refine ⟨m, rfl, fun e he => ?_⟩
    obtain ⟨f, hf, hfe⟩ := exists_of_mapM_eq_some hes he
    obtain ⟨a, ha, hfe⟩ := Option.bind_eq_some_iff.mp hfe
    cases hfe
    obtain ⟨g, hg, hgf⟩ := exists_of_mapM_eq_some hnamed hf
    obtain ⟨k, -, hgf⟩ := Option.bind_eq_some_iff.mp hgf
    cases hgf
    exact ⟨g.2, hentries g hg, ha⟩

/-- **Entries are read back** if their values are. Nothing is sorted or merged here, so this
holds also of entries with repeated names. -/
theorem entriesOf?_written {es : Entries α} (h : ∀ e ∈ es, read (write e.2).tree = some e.2) :
    (Json.object (writtenEntries write es)).tree.entriesOf? read = some es := by
  have hnamed : (Json.object (writtenEntries write es)).tree.entries?
      = some (es.map (fun e => (e.1, (write e.2).tree))) := by
    rw [Json.tree_object, writtenEntries, List.map_map]
    exact mapM_map_eq_some (fun e _ => rfl)
  show (Tree.entries? _ >>= _) = _
  rw [hnamed]
  exact mapM_map_eq_self (fun e he => by rw [h e he]; rfl)

/-- Written entries fit one level above their values. -/
theorem fits_writtenEntries {es : Entries α} {m : Nat} (h : ∀ e ∈ es, (write e.2).tree.Fits m) :
    (Json.object (writtenEntries write es)).tree.Fits (m + 1) := by
  rw [Json.tree_object, Tree.fits_record]
  exact ⟨m, rfl, List.forall_mem_map.mpr (List.forall_mem_map.mpr h)⟩

/-- **A map returns** if its values do. Making a map of entries drops those that a later one
overwrites; in the entries of a map there are none. -/
theorem Returns.mapOf (h : Returns read write) :
    Returns (Tree.mapOf? read) (fun m => .object (m.toFields write)) := by
  intro n t m hfits hread
  obtain ⟨es, hes, rfl⟩ := Option.map_eq_some_iff.mp hread
  obtain ⟨k, rfl, hvalues⟩ := exists_of_entriesOf? hfits hes
  have hone : ∀ e ∈ (OrderedMap.ofEntries es).entries,
      read (write e.2).tree = some e.2 ∧ (write e.2).tree.Fits k := by
    intro e he
    obtain ⟨u, hu, hue⟩ := hvalues e (OrderedMap.mem_of_mem_ofEntries he)
    exact ⟨(h hu hue).reads, (h hu hue).fits⟩
  refine ⟨?_, fits_writtenEntries (fun e he => (hone e he).2), nofun⟩
  show ((Json.object (writtenEntries write _)).tree.entriesOf? read).map _ = _
  rw [entriesOf?_written (fun e he => (hone e he).1)]
  exact congrArg some (OrderedMap.eq_of_entries
    (OrderedMap.entries_ofEntries (OrderedMap.ofEntries es).distinct))

end Parts

/-! ## Written fields

A record is described by a list of fields that may be absent, and `Json.present` is what of
it is written. The lemmas on `present` are for the simplifier: they turn such a list into
the concatenation that the writers of the structures are defined by. -/

namespace Json

/-- **The fields that are present** among fields that may be absent. Absent fields leave no
trace, in particular no `null`. -/
def present (fields : List (String × Option Json)) : List (String × Json) :=
  fields.filterMap (fun f => f.2.map (f.1, ·))

/-- A list as a field: absent if it is empty. -/
def listed (items : List Json) : Option Json :=
  if items.isEmpty then none else some (.list items)

/-- A map as a field: absent if it is empty. -/
def mapped (fields : List (String × Json)) : Option Json :=
  if fields.isEmpty then none else some (.object fields)

variable {fields : List (String × Option Json)}

@[simp] theorem present_nil : present [] = [] := rfl

@[simp] theorem present_some (name : String) (value : Json) :
    present ((name, some value) :: fields) = [(name, value)] ++ present fields := rfl

/-- A value that may be absent is written as the field of that value. -/
@[simp] theorem present_map (name : String) (write : α → Json) (value : Option α) :
    present ((name, value.map write) :: fields) = field? name write value ++ present fields := by
  cases value <;> rfl

/-- A list that may be empty is written as the field of that list. -/
@[simp] theorem present_listed (name : String) (items : List Json) :
    present ((name, listed items) :: fields) = listField name items ++ present fields := by
  cases items <;> rfl

/-- A map that may be empty is written as the field of that map. -/
@[simp] theorem present_mapped (name : String) (entries : List (String × Json)) :
    present ((name, mapped entries) :: fields) = mapField name entries ++ present fields := by
  cases entries <;> rfl

/-- A field is present exactly if it has a value. -/
theorem mem_present {name : String} {value : Json} :
    (name, value) ∈ present fields ↔ (name, some value) ∈ fields := by
  simp [present, Option.map_eq_some_iff]

/-- What is present stands in its order. So distinct names stay distinct, and no name is
written that is not among the fields. -/
theorem keys_present_sublist (fields : List (String × Option Json)) :
    ((present fields).map Prod.fst).Sublist (fields.map Prod.fst) := by
  induction fields with
  | nil => exact List.Sublist.refl _
  | cons f fields ih =>
    obtain ⟨name, value⟩ := f
    cases value with
    | none => exact ih.cons name
    | some value => exact ih.cons_cons name

end Json

/-! ## Reading a written record

The reader collects the slots of a record by name and refuses a name that it meets twice.
Fields with different names are therefore all found, each with what was written for it, and
a field that is absent is not found. -/

/-- The slots that a reader finds in a written object, for the fields it knows. -/
def writtenSlots (names : List String) (fields : List (String × Json)) : Entries Tree :=
  (fields.filter (fun f => names.contains f.1)).map (fun f => (f.1, f.2.tree))

/-- **Fields of different names are all found.** The reader has found some already and goes
on; a name that it does not know is passed over, one that it knows becomes a slot. -/
theorem slots?_written (names : List String) {fields : List (String × Json)}
    {found : Entries Tree} (h : (found.keys ++ fields.map Prod.fst).Nodup) :
    Tree.slots? names (fields.map (fun f => (Tree.ofText f.1, f.2.tree))) found
      = some (found ++ writtenSlots names fields) := by
  induction fields generalizing found with
  | nil => simp [Tree.slots?, writtenSlots]
  | cons f fields ih =>
    obtain ⟨name, value⟩ := f
    have hname : found.find? name = none := Entries.find?_eq_none (fun hmem =>
      (List.nodup_append.mp h).2.2 name hmem name List.mem_cons_self rfl)
    have hname' : Tree.fieldName? names (Tree.ofText name) = some name := rfl
    rw [List.map_cons, Tree.slots?, hname', Option.bind_eq_bind, Option.bind_some, hname]
    by_cases hknown : names.contains name = true
    · have hslots : writtenSlots names ((name, value) :: fields)
          = (name, value.tree) :: writtenSlots names fields := by
        simp only [writtenSlots, List.filter_cons, hknown, if_true, List.map_cons]
      rw [if_pos hknown, if_neg (by simp), ih (by simpa [Entries.keys] using h), hslots,
        List.append_assoc, List.singleton_append]
    · have hslots : writtenSlots names ((name, value) :: fields) = writtenSlots names fields := by
        simp only [writtenSlots, List.filter_cons, hknown, Bool.false_eq_true, if_false]
      rw [if_neg hknown, hslots]
      exact ih (h.sublist (List.Sublist.append_left (List.sublist_cons_self _ _) _))

/-- **The record of a written object** has the known ones among its fields, and is one with
names, not a list that is read by position. -/
theorem record?_written (names : List String) {fields : List (String × Json)}
    (h : (fields.map Prod.fst).Nodup) :
    (Json.object fields).tree.record? names = some ⟨true, writtenSlots names fields⟩ := by
  rw [Json.tree_object]
  show (Tree.slots? names _ []).map _ = _
  rw [slots?_written names (by simpa [Entries.keys] using h)]
  rfl

namespace Record

/-- Every value of a record fits. The record itself is the level above. -/
def Fits (m : Nat) (r : Record) : Prop := ∀ s ∈ r.slots, s.2.Fits m

/-- **A record holds written fields**: it finds each that is present, and no other. It may
have more slots than these; a reader that asks only for these fields does not see them. -/
structure Holds (r : Record) (fields : List (String × Option Json)) : Prop where
  named : r.named = true
  slots : ∀ f ∈ fields, r.slots.find? f.1 = f.2.map Json.tree

end Record

/-- The record of a written object holds what was written. A field without a value is left
out when it is written, and must not be found; its name would be that of another field
otherwise. -/
theorem holds_written {fields : List (String × Option Json)} (h : (fields.map Prod.fst).Nodup) :
    Record.Holds ⟨true, writtenSlots (fields.map Prod.fst) (Json.present fields)⟩ fields := by
  have hnodup : ((Json.present fields).map Prod.fst).Nodup :=
    h.sublist (Json.keys_present_sublist fields)
  have hall : writtenSlots (fields.map Prod.fst) (Json.present fields)
      = (Json.present fields).map (fun f => (f.1, f.2.tree)) := by
    unfold writtenSlots
    rw [List.filter_eq_self.mpr]
    intro f hf
    exact List.contains_iff_mem.mpr
      ((Json.keys_present_sublist fields).subset (List.mem_map_of_mem hf))
  have hkeys : Entries.keys ((Json.present fields).map (fun f => (f.1, f.2.tree)))
      = (Json.present fields).map Prod.fst := by
    rw [Entries.keys, List.map_map]
    rfl
  refine ⟨rfl, fun f hf => ?_⟩
  obtain ⟨name, value⟩ := f
  dsimp only
  rw [hall]
  cases value with
  | none =>
    refine Entries.find?_eq_none ?_
    rw [hkeys]
    intro hmem
    obtain ⟨⟨name', j⟩, hj, rfl⟩ := List.mem_map.mp hmem
    cases List.inj_on_of_nodup_map h hf (Json.mem_present.mp hj) rfl
  | some j =>
    rw [Option.map_some, Entries.find?_eq_some_iff (by rwa [hkeys])]
    exact List.mem_map.mpr ⟨(name, j), Json.mem_present.mpr hf, rfl⟩

/-- The values of the record of a node fit one level deeper. A list can be read as a record
too, by position. -/
theorem Record.fits_of_record? {names : List String} {t : Tree} {n : Nat} {r : Record}
    (hfits : t.Fits n) (h : t.record? names = some r) : ∃ m, n = m + 1 ∧ r.Fits m := by
  cases t with
  | scalar v => cases h
  | list items =>
    obtain ⟨m, rfl, hitems⟩ := Tree.fits_list.mp hfits
    rw [Tree.record?] at h
    split_ifs at h
    cases h
    exact ⟨m, rfl, fun s hs => hitems s.2 (List.of_mem_zip hs).2⟩
  | record entries =>
    obtain ⟨m, rfl, hentries⟩ := Tree.fits_record.mp hfits
    obtain ⟨slots, hslots, rfl⟩ := Option.map_eq_some_iff.mp h
    refine ⟨m, rfl, ?_⟩
    -- The reader goes through the entries with the slots found so far; the statement is about
    -- those as well, for the induction.
    suffices hgo : ∀ (es : List (Tree × Tree)) (found : Entries Tree),
        (∀ e ∈ es, e.2.Fits m) → (∀ s ∈ found, s.2.Fits m) →
        Tree.slots? names es found = some slots → ∀ s ∈ slots, s.2.Fits m from
      hgo entries [] hentries nofun hslots
    intro es
    induction es with
    | nil =>
      intro found _ hfound h
      cases h
      exact hfound
    | cons e es ih =>
      intro found hes hfound h
      obtain ⟨he, hes⟩ := List.forall_mem_cons.mp hes
      obtain ⟨name, -, h⟩ := Option.bind_eq_some_iff.mp h
      split_ifs at h
      · exact ih _ hes (List.forall_mem_append.mpr ⟨hfound, List.forall_mem_singleton.mpr he⟩) h
      · exact ih _ hes hfound h

/-! ## References

Where a definition or a reference may stand, the reader looks for a field `$ref` and takes
the node for a reference if there is one. -/

/-- **A definition is not taken for a reference** if none of its fields is `$ref`. What is
asked is only the names of its fields, so this is decided once for each structure. -/
theorem referencePath?_present {fields : List (String × Option Json)}
    (hnodup : (fields.map Prod.fst).Nodup) (h : "$ref" ∉ fields.map Prod.fst) :
    referencePath? (Json.object (Json.present fields)).tree = none := by
  have hnone : writtenSlots ["$ref"] (Json.present fields) = [] := by
    unfold writtenSlots
    rw [List.filter_eq_nil_iff.mpr, List.map_nil]
    intro f hf hknown
    rw [List.contains_iff_mem, List.mem_singleton] at hknown
    exact h (hknown ▸ (Json.keys_present_sublist fields).subset (List.mem_map_of_mem hf))
  have hrecord := record?_written ["$ref"] (hnodup.sublist (Json.keys_present_sublist fields))
  rw [hnone] at hrecord
  rw [Json.tree_object] at hrecord ⊢
  show ((Tree.record _).record? ["$ref"] >>= _) = _
  rw [hrecord]
  rfl

/-- **A reference or a definition returns** if the definition does, and is not taken for a
reference. -/
theorem Returns.refOr {read : Tree → Option α} {write : α → Json} (h : Returns read write)
    (hplain : ∀ a, referencePath? (write a).tree = none) :
    Returns (RefOr.read? read) (RefOr.toJson write) := by
  intro n t a hfits hread
  unfold RefOr.read? at hread
  split_ifs at hread
  cases hpath : referencePath? t with
  | some path =>
    rw [hpath] at hread
    cases hread
    -- Only a record has a reference, and it has a level for the one that is written.
    obtain ⟨m, rfl⟩ : ∃ m, n = m + 1 := by
      cases t with
      | scalar | list => cases hpath
      | record entries =>
        obtain ⟨m, rfl, -⟩ := Tree.fits_record.mp hfits
        exact ⟨m, rfl⟩
    refine ⟨?_, ?_, nofun⟩
    · unfold RefOr.read?
      rw [Json.isReadable_tree]
      rfl
    · show (Json.object [("$ref", Json.text path)]).tree.Fits (m + 1)
      rw [Json.tree_object]
      exact Tree.fits_record.mpr
        ⟨m, rfl, List.forall_mem_singleton.mpr (Tree.fits_ofText path)⟩
  | none =>
    rw [hpath] at hread
    obtain ⟨v, hv, rfl⟩ := Option.map_eq_some_iff.mp hread
    obtain ⟨hreads, hfits, hnull⟩ := h hfits hv
    refine ⟨?_, hfits, hnull⟩
    show RefOr.read? read (write v).tree = _
    unfold RefOr.read?
    rw [Json.isReadable_tree, hplain, hreads]
    rfl

/-! ## The fields of a record

`Regains` is about a reader of fields, hence about records and not nodes. It is closed under
sequencing (`Regains.bind`), as the readers are sequences of fields. Every kind of field
then has one lemma: it is regained from what it is written as. -/

/-- **What is read of a record is read again** of every record that holds these fields.

The fields are those that one part of a reader asks for, and `body` is that part. Which
other fields the record has does not matter, so the statements of the parts can be put
together. -/
structure Regains (m : Nat) (body : Record → Option α) (fields : List (String × Option Json))
    (a : α) : Prop where
  fits : ∀ f ∈ fields, ∀ j ∈ f.2, j.tree.Fits m
  reads : ∀ r, Record.Holds r fields → body r = some a

section Fields

variable {m : Nat} {read : Tree → Option α} {write : α → Json} {r : Record} {name : String}

/-- Nothing more is read, and what has been found is put together. -/
theorem Regains.done {o : Option α} {a : α} (h : o = some a) : Regains m (fun _ => o) [] a :=
  ⟨nofun, fun _ _ => h⟩

/-- **One field after the other.** What the rest of the reader does may depend on what was
found, and the rest is only asked to return what it gave for this one. -/
theorem Regains.bind {get : Record → Option α} {body : α → Record → Option β}
    {fields fields' : List (String × Option Json)} {a : α} {b : β}
    (hget : Regains m get fields a) (hbody : Regains m (body a) fields' b) :
    Regains m (fun r => get r >>= fun a => body a r) (fields ++ fields') b where
  fits := List.forall_mem_append.mpr ⟨hget.fits, hbody.fits⟩
  reads r hr := by
    obtain ⟨hslots, hslots'⟩ := List.forall_mem_append.mp hr.slots
    show (get r >>= _) = _
    rw [hget.reads r ⟨hr.named, hslots⟩]
    exact hbody.reads r ⟨hr.named, hslots'⟩

/-- The node of a slot fits. -/
theorem Record.Fits.of_find? (hr : r.Fits m) {t : Tree} (h : r.slots.find? name = some t) :
    t.Fits m := hr _ (Entries.mem_of_find?_eq_some h)

/-- The one field of a value that fits. -/
theorem fits_singleton {j : Json} (h : j.tree.Fits m) :
    ∀ f ∈ [(name, some j)], ∀ j ∈ f.2, j.tree.Fits m := by
  intro f hf j' hj
  cases List.mem_singleton.mp hf
  cases hj
  exact h

/-- A record that holds one field has it as a slot, or has no such slot. -/
theorem Record.Holds.find?_singleton {value : Option Json} (h : Record.Holds r [(name, value)]) :
    r.slots.find? name = value.map Json.tree := h.slots _ List.mem_cons_self

/-- **A field that must be given returns.** It was given, so it is written, and it is found
again. -/
theorem regains_required (hr : r.Fits m) (h : Returns read write) {a : α}
    (hread : r.required? name read = some a) :
    Regains m (Record.required? · name read) [(name, some (write a))] a := by
  obtain ⟨t, ht, hta⟩ := Option.bind_eq_some_iff.mp hread
  obtain ⟨hreads, hfits, -⟩ := h (hr.of_find? ht) hta
  refine ⟨fits_singleton hfits, fun r' hr' => ?_⟩
  unfold Record.required?
  rw [hr'.find?_singleton]
  exact hreads

/-- What stands for a value is not read as an absent one. Only `null` is, which is why what
is written for a value must not be `null`. -/
theorem optional?_of_ne_null {t : Tree} (h : t ≠ .scalar .null) :
    t.optional? read = (read t).map some := by
  unfold Tree.optional?
  split
  · exact absurd rfl h
  · rfl

/-- **A field whose value may be absent returns**: absent values are not written. An absent
field and one that is `null` are read alike and written alike, so one of the two texts is
not recovered, but the value is. -/
theorem regains_optional (hr : r.Fits m) (h : Returns read write) {o : Option α}
    (hread : r.optional? name read = some o) :
    Regains m (Record.optional? · name read) [(name, o.map write)] o := by
  cases o with
  | none =>
    refine ⟨by simp, fun r' hr' => ?_⟩
    unfold Record.optional?
    rw [hr'.find?_singleton, hr'.named]
    rfl
  | some a =>
    obtain ⟨t, ht, hta⟩ : ∃ t, r.slots.find? name = some t ∧ t.optional? read = some (some a) := by
      unfold Record.optional? at hread
      split at hread
      · next t ht => exact ⟨t, ht, hread⟩
      · split_ifs at hread
        cases hread
    have hne : t ≠ .scalar .null := by
      rintro rfl
      cases hta
    rw [optional?_of_ne_null hne] at hta
    obtain ⟨a', ha', haa'⟩ := Option.map_eq_some_iff.mp hta
    cases haa'
    obtain ⟨hreads, hfits, hnull⟩ := h (hr.of_find? ht) ha'
    refine ⟨fits_singleton hfits, fun r' hr' => ?_⟩
    unfold Record.optional?
    rw [hr'.find?_singleton]
    show Tree.optional? read (write a).tree = _
    rw [optional?_of_ne_null (fun hj => hne (hnull (Json.tree_eq_null_iff.mp hj))), hreads]
    rfl

/-- What a field with a value of its own was read as: that value if the field is absent, and
what stands there otherwise. -/
theorem eq_default_or_of_withDefault? {default a : α}
    (h : r.withDefault? name default read = some a) :
    a = default ∨ ∃ t, r.slots.find? name = some t ∧ read t = some a := by
  unfold Record.withDefault? at h
  split at h
  · next t ht => exact Or.inr ⟨t, ht, h⟩
  · exact Or.inl (Option.some.inj h).symm

/-- **A field that is always written returns**, whether it was given or not. If it was not,
the default is written, and must be readable itself. -/
theorem regains_always (hr : r.Fits m) (h : Returns read write) {default a : α}
    (hdefault : read (write default).tree = some default ∧ (write default).tree.Fits m)
    (hread : r.withDefault? name default read = some a) :
    Regains m (Record.withDefault? · name default read) [(name, some (write a))] a := by
  have hwritten : read (write a).tree = some a ∧ (write a).tree.Fits m := by
    rcases eq_default_or_of_withDefault? hread with rfl | ⟨t, ht, hta⟩
    · exact hdefault
    · exact ⟨(h (hr.of_find? ht) hta).reads, (h (hr.of_find? ht) hta).fits⟩
  refine ⟨fits_singleton hwritten.2, fun r' hr' => ?_⟩
  unfold Record.withDefault?
  rw [hr'.find?_singleton]
  exact hwritten.1

/-- **A flag that is always written returns.** -/
theorem regains_flag (hr : r.Fits m) {b : Bool}
    (hread : r.withDefault? name false Tree.bool? = some b) :
    Regains m (Record.withDefault? · name false Tree.bool?) [(name, some (.bool b))] b :=
  regains_always hr returns_bool ⟨rfl, Tree.fits_scalar.mpr trivial⟩ hread

/-- **A field that is written unless it has its own value returns.** It is left out exactly
where leaving it out means the same, and where it is written it is read as any other. -/
theorem regains_unless (hr : r.Fits m) (h : Returns read write) {default a : α}
    {value : Option Json} (hnone : value = none → a = default)
    (hsome : ∀ j, value = some j → j = write a ∧ a ≠ default)
    (hread : r.withDefault? name default read = some a) :
    Regains m (Record.withDefault? · name default read) [(name, value)] a := by
  cases value with
  | none =>
    refine ⟨by simp, fun r' hr' => ?_⟩
    unfold Record.withDefault?
    rw [hr'.find?_singleton, hnone rfl]
    rfl
  | some j =>
    obtain ⟨rfl, hne⟩ := hsome j rfl
    obtain ⟨t, ht, hta⟩ := (eq_default_or_of_withDefault? hread).resolve_left hne
    obtain ⟨hreads, hfits, -⟩ := h (hr.of_find? ht) hta
    refine ⟨fits_singleton hfits, fun r' hr' => ?_⟩
    unfold Record.withDefault?
    rw [hr'.find?_singleton]
    exact hreads

/-- **A list that is written unless it is empty returns.** A list that was given empty comes
back as one that was not given, and both are read as the empty list. -/
theorem regains_listOf (hr : r.Fits m) (h : Returns read write) {as : List α}
    (hread : r.withDefault? name [] (Tree.listOf? read) = some as) :
    Regains m (Record.withDefault? · name [] (Tree.listOf? read))
      [(name, Json.listed (as.map write))] as := by
  refine regains_unless hr h.listOf ?_ ?_ hread
  · cases as with
    | nil => exact fun _ => rfl
    | cons a as => exact nofun
  · cases as with
    | nil => exact nofun
    | cons a as =>
      intro j hj
      cases hj
      exact ⟨rfl, List.cons_ne_nil _ _⟩

/-- **A map that is written unless it is empty returns.** -/
theorem regains_mapOf (hr : r.Fits m) (h : Returns read write) {map : OrderedMap α}
    (hread : r.withDefault? name .empty (Tree.mapOf? read) = some map) :
    Regains m (Record.withDefault? · name .empty (Tree.mapOf? read))
      [(name, Json.mapped (map.toFields write))] map := by
  refine regains_unless hr h.mapOf ?_ ?_ hread
  · obtain ⟨entries, hdistinct⟩ := map
    cases entries with
    | nil => exact fun _ => rfl
    | cons e es => exact nofun
  · obtain ⟨entries, hdistinct⟩ := map
    cases entries with
    | nil => exact nofun
    | cons e es =>
      intro j hj
      cases hj
      exact ⟨rfl, fun hempty => List.cons_ne_nil _ _ (congrArg OrderedMap.entries hempty)⟩

/-- **Entries that make a map return** as the entries of the map. The reader of the
properties keeps entries and makes the map itself; what is written are the entries of that
map, so a second making leaves them as they are. -/
theorem regains_entriesOf (hr : r.Fits m) (h : Returns read write) {es : Entries α}
    (hread : r.withDefault? name [] (Tree.entriesOf? read) = some es) :
    Regains m (Record.withDefault? · name [] (Tree.entriesOf? read))
      [(name, Json.mapped (writtenEntries write (OrderedMap.ofEntries es).entries))]
      (OrderedMap.ofEntries es).entries := by
  cases hes : (OrderedMap.ofEntries es).entries with
  | nil =>
    refine ⟨by simp [writtenEntries, Json.mapped], fun r' hr' => ?_⟩
    unfold Record.withDefault?
    rw [hr'.find?_singleton]
    rfl
  | cons e es' =>
    have hne : es ≠ [] := fun hnil => by
      rw [hnil] at hes
      cases hes
    obtain ⟨t, ht, htes⟩ := (eq_default_or_of_withDefault? hread).resolve_left hne
    obtain ⟨k, rfl, hvalues⟩ := exists_of_entriesOf? (hr.of_find? ht) htes
    have hone : ∀ f ∈ e :: es', read (write f.2).tree = some f.2 ∧ (write f.2).tree.Fits k := by
      intro f hf
      obtain ⟨u, hu, huf⟩ := hvalues f (OrderedMap.mem_of_mem_ofEntries (hes ▸ hf))
      exact ⟨(h hu huf).reads, (h hu huf).fits⟩
    have hfields : Json.mapped (writtenEntries write (e :: es'))
        = some (.object (writtenEntries write (e :: es'))) := rfl
    rw [hfields]
    refine ⟨fits_singleton (fits_writtenEntries (fun f hf => (hone f hf).2)), fun r' hr' => ?_⟩
    unfold Record.withDefault?
    rw [hr'.find?_singleton]
    exact entriesOf?_written (fun f hf => (hone f hf).1)

/-- **A record returns** if what is read of it is regained from the fields that are written.

The hypotheses are what the definitions of a reader and a writer say, each closed by `rfl`
or by deciding: that the reader takes the record with these names and goes on, that the
writer writes the fields that are present, and that these fields have these names, which
differ. -/
theorem returns_record {names : List String} {body : Record → Option α}
    {fields : α → List (String × Option Json)}
    (hread : ∀ t, read t = t.record? names >>= body)
    (hwrite : ∀ a, write a = .object (Json.present (fields a)))
    (hnames : ∀ a, (fields a).map Prod.fst = names) (hnodup : names.Nodup)
    (hbody : ∀ {m r a}, r.Fits m → body r = some a → Regains m body (fields a) a) :
    Returns read write := by
  intro n t a hfits h
  rw [hread] at h
  obtain ⟨r, hr, hra⟩ := Option.bind_eq_some_iff.mp h
  obtain ⟨m, rfl, hrfits⟩ := Record.fits_of_record? hfits hr
  obtain ⟨hfits, hreads⟩ := hbody hrfits hra
  have hnodup' : ((fields a).map Prod.fst).Nodup := (hnames a).symm ▸ hnodup
  rw [hwrite]
  refine ⟨?_, ?_, nofun⟩
  · rw [hread, ← hnames a,
      record?_written _ (hnodup'.sublist (Json.keys_present_sublist (fields a)))]
    exact hreads _ (holds_written hnodup')
  · rw [Json.tree_object, Tree.fits_record]
    refine ⟨m, rfl, List.forall_mem_map.mpr (fun f hf => ?_)⟩
    exact hfits (f.1, some f.2) (Json.mem_present.mp hf) f.2 rfl

end Fields

end ClientGen
