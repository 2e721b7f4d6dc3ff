import ClientGen.Proofs.Preparation
import ClientGen.Tree.Basic
import Mathlib.Data.String.Basic

/-!
# JSON values as nodes

`Json.tree` is the node that the text of a JSON value is read into. Its fields stand in the
order in which the value lists them.

`Tree.Fits` says of a node that it is nested at most so deep and that its scalars are ones
which a JSON text can hold. A value that was taken from such a node is found again in the
node of the value (`Tree.json?_tree`): the fields of its objects were sorted when it was
read, so reading them a second time leaves them where they are (`Json.ofFields_of_sorted`).

The two are not inverse to each other. Many nodes are read as one value: fields in another
order, a field that is given twice, of which the last one counts. It is the composition in
one order, from a value to its node and back, that gives back what it was given, and only
for values that were read.
-/

namespace ClientGen

/-! ## Induction over values and nodes

A value may hold lists of values, so the induction that comes with the type is about three
kinds of things at once. These two are about one. -/

/-- **Induction over a JSON value**: a list or an object is settled by what it holds. -/
theorem Json.value_induction {P : Json → Prop} (null : P .null) (bool : ∀ b, P (.bool b))
    (number : ∀ n, P (.number n)) (text : ∀ s, P (.text s))
    (list : ∀ items, (∀ j ∈ items, P j) → P (.list items))
    (object : ∀ fields, (∀ f ∈ fields, P f.2) → P (.object fields)) : ∀ j, P j
  | .null => null
  | .bool b => bool b
  | .number n => number n
  | .text s => text s
  | .list items => list items (fun j _hj => value_induction null bool number text list object j)
  | .object fields =>
    object fields (fun f _hf => value_induction null bool number text list object f.2)
termination_by j => sizeOf j
decreasing_by
  · have := List.sizeOf_lt_of_mem _hj
    simp only [Json.list.sizeOf_spec]
    omega
  · have := List.sizeOf_lt_of_mem _hf
    obtain ⟨k, v⟩ := f
    simp only [Json.object.sizeOf_spec, Prod.mk.sizeOf_spec] at this ⊢
    omega

/-- **Induction over a node**: a list or a record is settled by the values it holds. -/
theorem Tree.node_induction {P : Tree → Prop} (scalar : ∀ v, P (.scalar v))
    (list : ∀ items, (∀ t ∈ items, P t) → P (.list items))
    (record : ∀ entries, (∀ e ∈ entries, P e.2) → P (.record entries)) : ∀ t, P t
  | .scalar v => scalar v
  | .list items => list items (fun t _ht => node_induction scalar list record t)
  | .record entries => record entries (fun e _he => node_induction scalar list record e.2)
termination_by t => sizeOf t
decreasing_by
  · have := List.sizeOf_lt_of_mem _ht
    simp only [Tree.list.sizeOf_spec]
    omega
  · have := List.sizeOf_lt_of_mem _he
    obtain ⟨k, v⟩ := e
    simp only [Tree.record.sizeOf_spec, Prod.mk.sizeOf_spec] at this ⊢
    omega

/-! ## The node of a value

Defined by recursion on the value, with functions of their own for items and fields. The
lemmas say that these are maps, and from then on only the maps are used. -/

namespace Json

/-- The scalar of a number. -/
def Number.scalar : Number → Scalar
  | .integer n => if n < 0 then .negative n.natAbs else .natural n.natAbs
  | .float x => .float x

/-- A negative integer is kept by its magnitude. -/
theorem Number.scalar_of_neg {n : Int} (h : n < 0) :
    (Number.integer n).scalar = .negative n.natAbs := if_pos h

/-- So is any other, as a natural number. -/
theorem Number.scalar_of_nonneg {n : Int} (h : 0 ≤ n) :
    (Number.integer n).scalar = .natural n.natAbs := if_neg (not_lt.mpr h)

mutual

/-- **The node of a value.** -/
def tree : Json → Tree
  | .null => .scalar .null
  | .bool b => .scalar (.bool b)
  | .number n => .scalar n.scalar
  | .text s => .ofText s
  | .list items => .list (itemTrees items)
  | .object fields => .record (fieldTrees fields)

/-- The nodes of the items of a list. -/
def itemTrees : List Json → List Tree
  | [] => []
  | j :: js => tree j :: itemTrees js

/-- The nodes of the fields of an object. -/
def fieldTrees : List (String × Json) → List (Tree × Tree)
  | [] => []
  | (k, v) :: fs => (.ofText k, tree v) :: fieldTrees fs

end

/-- The items of a list, each as its node. -/
theorem itemTrees_eq_map (items : List Json) : itemTrees items = items.map tree := by
  induction items with
  | nil => rfl
  | cons j js ih => rw [itemTrees, ih, List.map_cons]

/-- The fields of an object, each as its key and the node of its value. -/
theorem fieldTrees_eq_map (fields : List (String × Json)) :
    fieldTrees fields = fields.map (fun f => (Tree.ofText f.1, f.2.tree)) := by
  induction fields with
  | nil => rfl
  | cons f fs ih =>
    obtain ⟨k, v⟩ := f
    rw [fieldTrees, ih, List.map_cons]

@[simp] theorem tree_list (items : List Json) :
    (Json.list items).tree = .list (items.map tree) := by
  rw [tree, itemTrees_eq_map]

@[simp] theorem tree_object (fields : List (String × Json)) :
    (Json.object fields).tree
      = .record (fields.map (fun f => (Tree.ofText f.1, f.2.tree))) := by
  rw [tree, fieldTrees_eq_map]

/-- Only the missing value has the node of the missing value. -/
theorem tree_eq_null_iff {j : Json} : j.tree = .scalar .null ↔ j = .null := by
  cases j with
  | null => simp [tree]
  | number n =>
    cases n with
    | integer n =>
      simp only [tree, Number.scalar]
      split_ifs <;> simp
    | float x => simp [tree, Number.scalar]
  | bool b => simp [tree]
  | text s => simp [tree, Tree.ofText]
  | list items => simp
  | object fields => simp

end Json

namespace Tree

/-- A list is readable if all items are. -/
theorem areReadable_eq_all (items : List Tree) : areReadable items = items.all isReadable := by
  induction items with
  | nil => rfl
  | cons t ts ih => rw [areReadable, ih, List.all_cons]

/-- A record is readable if all keys and values are. -/
theorem hasReadableEntries_eq_all (entries : List (Tree × Tree)) :
    hasReadableEntries entries = entries.all (fun e => e.1.isReadable && e.2.isReadable) := by
  induction entries with
  | nil => rfl
  | cons e es ih =>
    obtain ⟨k, v⟩ := e
    rw [hasReadableEntries, ih, List.all_cons]

@[simp] theorem text?_ofText (s : String) : (ofText s).text? = some s := rfl

@[simp] theorem isReadable_ofText (s : String) : (ofText s).isReadable = true := rfl

end Tree

/-- **Whatever is written can be read.** No value has an unreadable scalar in its node: a
JSON value cannot hold a text with half a character, or a number that is none. -/
theorem Json.isReadable_tree (j : Json) : j.tree.isReadable = true := by
  induction j using Json.value_induction with
  | null => rfl
  | bool b => rfl
  | number n =>
    cases n with
    | integer n =>
      simp only [tree, Number.scalar]
      split_ifs <;> rfl
    | float x => rfl
  | text s => rfl
  | list items ih =>
    rw [tree_list, Tree.isReadable, Tree.areReadable_eq_all, List.all_map, List.all_eq_true]
    exact ih
  | object fields ih =>
    rw [tree_object, Tree.isReadable, Tree.hasReadableEntries_eq_all, List.all_map,
      List.all_eq_true]
    exact fun f hf => by simp [ih f hf]

/-! ## Depth and scalars

The reader of a text has two limits, on the nesting and on the size of numbers. A node that
respects both can be written and read again without falling over one of them. -/

/-- A scalar that a JSON text can hold: a whole number fits 64 bits with its sign, and a
floating-point value is finite. -/
def Scalar.IsStandard : Scalar → Prop
  | .natural n => n < 2 ^ 64
  | .negative n => 0 < n ∧ n ≤ 2 ^ 63
  | .float x => x.isFinite = true
  | _ => True

/-- **A node fits into a depth**: lists and records are nested in it at most so deep,
and its scalars are standard. -/
def Tree.Fits : Nat → Tree → Prop
  | _, .scalar value => value.IsStandard
  | 0, _ => False
  | depth + 1, .list items => ∀ t ∈ items, Fits depth t
  | depth + 1, .record entries => ∀ e ∈ entries, Fits depth e.2

namespace Tree

variable {n : Nat}

@[simp] theorem fits_scalar {v : Scalar} : (Tree.scalar v).Fits n ↔ v.IsStandard := by
  cases n <;> rfl

/-- A list takes one level. -/
theorem fits_list {items : List Tree} :
    (Tree.list items).Fits n ↔ ∃ m, n = m + 1 ∧ ∀ t ∈ items, t.Fits m := by
  cases n with
  | zero => simp [Fits]
  | succ m => simp [Fits]

/-- A record takes one level. -/
theorem fits_record {entries : List (Tree × Tree)} :
    (Tree.record entries).Fits n ↔ ∃ m, n = m + 1 ∧ ∀ e ∈ entries, e.2.Fits m := by
  cases n with
  | zero => simp [Fits]
  | succ m => simp [Fits]

@[simp] theorem fits_ofText (s : String) : (ofText s).Fits n := fits_scalar.mpr trivial

end Tree

/-! ## Sorted fields

The fields of an object that is read are written one by one into a sorted list, a later one
in the place of an earlier one with the same key. -/

namespace Json

/-- The fields stand in the order of their keys, and no key is repeated. -/
def IsSorted (fields : List (String × Json)) : Prop := fields.Pairwise (fun f g => f.1 < g.1)

variable {fields : List (String × Json)} {key : String} {value : Json}

/-- Writing a field adds nothing but that field. -/
theorem mem_of_mem_insertField {f : String × Json} (h : f ∈ insertField key value fields) :
    f = (key, value) ∨ f ∈ fields := by
  induction fields with
  | nil => exact Or.inl (List.mem_singleton.mp h)
  | cons g fields ih =>
    obtain ⟨k, v⟩ := g
    rw [insertField] at h
    split_ifs at h with heq hlt
    · subst heq
      exact (List.mem_cons.mp h).imp_right (List.mem_cons_of_mem _)
    · exact List.mem_cons.mp h
    · rcases List.mem_cons.mp h with rfl | h
      · exact Or.inr List.mem_cons_self
      · exact (ih h).imp_right (List.mem_cons_of_mem _)

/-- Writing a field keeps the fields sorted: it takes the place of the one with its key, or
stands in front of the first with a greater one. -/
theorem IsSorted.insertField (h : IsSorted fields) (key : String) (value : Json) :
    IsSorted (insertField key value fields) := by
  induction fields with
  | nil => exact List.pairwise_singleton _ _
  | cons g fields ih =>
    obtain ⟨k, v⟩ := g
    obtain ⟨hfirst, hrest⟩ := List.pairwise_cons.mp h
    rw [Json.insertField]
    split_ifs with heq hlt
    · exact List.pairwise_cons.mpr ⟨hfirst, hrest⟩
    · refine List.pairwise_cons.mpr ⟨fun f hf => ?_, h⟩
      rcases List.mem_cons.mp hf with rfl | hf
      · exact hlt
      · exact hlt.trans (hfirst f hf)
    · refine List.pairwise_cons.mpr ⟨fun f hf => ?_, ih hrest⟩
      rcases mem_of_mem_insertField hf with rfl | hf
      · exact lt_of_le_of_ne (not_lt.mp hlt) (Ne.symm heq)
      · exact hfirst f hf

/-- A key behind all others is written at the end. -/
theorem insertField_of_forall_lt (h : ∀ f ∈ fields, f.1 < key) :
    insertField key value fields = fields ++ [(key, value)] := by
  induction fields with
  | nil => rfl
  | cons g fields ih =>
    obtain ⟨k, v⟩ := g
    have hk : k < key := h _ List.mem_cons_self
    rw [insertField, if_neg hk.ne', if_neg hk.asymm,
      ih (fun f hf => h f (List.mem_cons_of_mem _ hf)), List.cons_append]

/-- The fields that are left by writing fields in turn are sorted, and each of them was
there before or has been written. -/
theorem foldl_insertField (fields acc : List (String × Json)) (hacc : IsSorted acc) :
    IsSorted (fields.foldl (fun acc f => insertField f.1 f.2 acc) acc)
      ∧ ∀ f ∈ fields.foldl (fun acc f => insertField f.1 f.2 acc) acc, f ∈ acc ∨ f ∈ fields := by
  induction fields generalizing acc with
  | nil => exact ⟨hacc, fun f hf => Or.inl hf⟩
  | cons g fields ih =>
    obtain ⟨hsorted, hmem⟩ := ih _ (hacc.insertField g.1 g.2)
    refine ⟨hsorted, fun f hf => ?_⟩
    rcases hmem f hf with hf | hf
    · rcases mem_of_mem_insertField hf with rfl | hf
      · exact Or.inr List.mem_cons_self
      · exact Or.inl hf
    · exact Or.inr (List.mem_cons_of_mem _ hf)

/-- **An object that was read** holds fields that were read, sorted. -/
theorem exists_ofFields (fields : List (String × Json)) :
    ∃ sorted, ofFields fields = .object sorted ∧ IsSorted sorted ∧ ∀ f ∈ sorted, f ∈ fields :=
  ⟨_, rfl, (foldl_insertField fields [] List.Pairwise.nil).1, fun f hf =>
    ((foldl_insertField fields [] List.Pairwise.nil).2 f hf).resolve_left List.not_mem_nil⟩

/-- **Sorted fields stay as they are** when they are read again. Each key is behind all that
were written before, so each field is written at the end. -/
theorem ofFields_of_sorted (h : IsSorted fields) : ofFields fields = .object fields := by
  suffices hgo : ∀ acc : List (String × Json), IsSorted (acc ++ fields) →
      fields.foldl (fun acc f => insertField f.1 f.2 acc) acc = acc ++ fields from
    congrArg Json.object (hgo [] h)
  clear h
  induction fields with
  | nil => simp
  | cons g fields ih =>
    intro acc h
    have hg : ∀ f ∈ acc, f.1 < g.1 := fun f hf =>
      (List.pairwise_append.mp h).2.2 f hf g List.mem_cons_self
    rw [List.foldl_cons, insertField_of_forall_lt hg,
      ih _ (by rwa [List.append_assoc, List.singleton_append]), List.append_assoc,
      List.singleton_append]

end Json

/-! ## A value and the node it was taken from

Reading and writing lists element by element, and the main statement of this file, by
induction on the node. -/

/-- What was written is read, all of it, if each part is. -/
theorem mapM_map_eq_some {α β γ : Type} {read : β → Option γ} {write : α → β} {value : α → γ}
    {l : List α} (h : ∀ a ∈ l, read (write a) = some (value a)) :
    (l.map write).mapM read = some (l.map value) := by
  rw [option_mapM_eq_some, List.forall₂_map_left_iff, List.forall₂_map_right_iff]
  exact List.forall₂_same.mpr h

/-- Elements that are read back as they were written. -/
theorem mapM_map_eq_self {α β : Type} {read : β → Option α} {write : α → β} {l : List α}
    (h : ∀ a ∈ l, read (write a) = some a) : (l.map write).mapM read = some l := by
  have hmap := mapM_map_eq_some h
  rwa [List.map_id'] at hmap

/-- What was read of a list was read of one of its elements. -/
theorem exists_of_mapM_eq_some {α β : Type} {f : α → Option β} {l : List α} {l' : List β}
    (h : l.mapM f = some l') {b : β} (hb : b ∈ l') : ∃ a ∈ l, f a = some b :=
  exists_of_mem_of_forall₂ (option_mapM_eq_some.mp h) hb

namespace Tree

/-- A list is read item by item, and not at all if one of them cannot be read. -/
theorem jsonItems?_eq_mapM (items : List Tree) : jsonItems? items = items.mapM json? := by
  induction items with
  | nil => rfl
  | cons t ts ih => rw [jsonItems?, ih, List.mapM_cons]

/-- A record is read entry by entry; its keys have to be texts. -/
theorem jsonFields?_eq_mapM (entries : List (Tree × Tree)) :
    jsonFields? entries = entries.mapM (fun e => do return (← text? e.1, ← json? e.2)) := by
  induction entries with
  | nil => rfl
  | cons e es ih =>
    obtain ⟨k, v⟩ := e
    rw [jsonFields?, ih, List.mapM_cons]
    cases k.text? <;> cases v.json? <;> rfl

/-- **A value is found again in its own node**, which fits where the node fitted that the
value was taken from. Only there the missing value comes from the missing value.

The induction is on the node, since the value is only known from it. A number is the case
with something to check: an integer is kept with its sign, and a floating-point value as it
is. -/
theorem json?_tree {t : Tree} {n : Nat} {j : Json} (hfits : t.Fits n) (h : t.json? = some j) :
    j.tree.json? = some j ∧ j.tree.Fits n ∧ (j = .null → t = .scalar .null) := by
  induction t using Tree.node_induction generalizing n j with
  | scalar v =>
    replace hfits := fits_scalar.mp hfits
    cases v with
    | null | bool | text =>
      cases h
      simp [Json.tree, json?, ofText, Scalar.IsStandard]
    | natural k =>
      cases h
      have hk : ¬ (k : Int) < 0 := by omega
      simpa [Json.tree, Json.Number.scalar, json?, hk] using hfits
    | negative k =>
      cases h
      simpa [Json.tree, Json.Number.scalar, json?, hfits.1] using hfits
    | float x =>
      have hx : x.isFinite = true := hfits
      rw [json?, if_pos hx] at h
      cases h
      simp [Json.tree, Json.Number.scalar, json?, hx, Scalar.IsStandard]
    | unreadable => cases h
  | list items ih =>
    obtain ⟨m, rfl, hitems⟩ := fits_list.mp hfits
    rw [json?, jsonItems?_eq_mapM] at h
    obtain ⟨js, hjs, rfl⟩ := Option.map_eq_some_iff.mp h
    have hone : ∀ j ∈ js, j.tree.json? = some j ∧ j.tree.Fits m := by
      intro j hj
      obtain ⟨t, ht, htj⟩ := exists_of_mapM_eq_some hjs hj
      exact ⟨(ih t ht (hitems t ht) htj).1, (ih t ht (hitems t ht) htj).2.1⟩
    refine ⟨?_, ?_, nofun⟩
    · rw [Json.tree_list, json?, jsonItems?_eq_mapM, mapM_map_eq_self (fun j hj => (hone j hj).1)]
      rfl
    · rw [Json.tree_list, fits_list]
      exact ⟨m, rfl, List.forall_mem_map.mpr (fun j hj => (hone j hj).2)⟩
  | record entries ih =>
    obtain ⟨m, rfl, hentries⟩ := fits_record.mp hfits
    rw [json?, jsonFields?_eq_mapM] at h
    obtain ⟨fields, hfields, rfl⟩ := Option.map_eq_some_iff.mp h
    obtain ⟨sorted, hsorted, hpairwise, hmem⟩ := Json.exists_ofFields fields
    have hone : ∀ f ∈ sorted, f.2.tree.json? = some f.2 ∧ f.2.tree.Fits m := by
      intro f hf
      obtain ⟨e, he, hef⟩ := exists_of_mapM_eq_some hfields (hmem f hf)
      obtain ⟨k, -, hef⟩ := Option.bind_eq_some_iff.mp hef
      obtain ⟨v, hv, hef⟩ := Option.bind_eq_some_iff.mp hef
      cases hef
      exact ⟨(ih e he (hentries e he) hv).1, (ih e he (hentries e he) hv).2.1⟩
    rw [hsorted]
    refine ⟨?_, ?_, nofun⟩
    · rw [Json.tree_object, json?, jsonFields?_eq_mapM,
        mapM_map_eq_self (fun f hf => by rw [text?_ofText, (hone f hf).1]; rfl)]
      exact congrArg some (Json.ofFields_of_sorted hpairwise)
    · rw [Json.tree_object, fits_record]
      exact ⟨m, rfl, List.forall_mem_map.mpr (fun f hf => (hone f hf).2)⟩

end Tree

end ClientGen
