import ClientGen.Schema.Preparation
import Mathlib.Data.List.Forall2
import Mathlib.Data.Option.Basic
import Mathlib.Logic.Relation

/-!
# Going down a schema

The preparation of a schema descends through its properties and its inline items.
`Schema.Holds` is one step of that descent, and `Schema.part_induction` the induction along
it; the height of a schema is its measure.

What the descent does to a node is rewrite what its properties and its items hold, never
which properties there are or whether there are items. A node looks the same before and
after (`Schema.SameFrame`): the questions that decide about a node – array, map,
composition, its kind – look no deeper than the frame.

`Schema.PartsRel` is the other side: two nodes whose parts are related one by one. It is how
one level of any descent is stated here, whatever is done below, and it carries facts from
what a node holds to the node in both directions.
-/

namespace ClientGen

/-- Every member of the second of two related lists is related to one of the
first. -/
theorem exists_of_mem_of_forall₂ {α β : Type} {r : α → β → Prop} {l : List α} {l' : List β}
    (h : List.Forall₂ r l l') {b : β} (hb : b ∈ l') : ∃ a ∈ l, r a b := by
  induction h with
  | nil => cases hb
  | @cons a b' l l' hab _ ih =>
    rcases List.mem_cons.mp hb with rfl | hb
    · exact ⟨a, List.mem_cons_self, hab⟩
    · obtain ⟨a', ha', hr⟩ := ih hb
      exact ⟨a', List.mem_cons_of_mem a ha', hr⟩

/-- A list all of whose members are related to something is related to a list. -/
theorem exists_forall₂ {α β : Type} {r : α → β → Prop} {l : List α}
    (h : ∀ a ∈ l, ∃ b, r a b) : ∃ l', List.Forall₂ r l l' := by
  induction l with
  | nil => exact ⟨[], .nil⟩
  | cons a l ih =>
    obtain ⟨b, hb⟩ := h a List.mem_cons_self
    obtain ⟨l', hl⟩ := ih (fun a' ha => h a' (List.mem_cons_of_mem a ha))
    exact ⟨b :: l', .cons hb hl⟩

namespace RefOr

variable {α β : Type}

/-- Two parts are the same reference, or inline definitions that are related. -/
inductive Rel (r : α → β → Prop) : RefOr α → RefOr β → Prop
  | ref (path : String) : Rel r (.ref path) (.ref path)
  | inline {a : α} {b : β} (h : r a b) : Rel r (.inline a) (.inline b)

/-- What is related is related by any relation that follows. -/
theorem Rel.imp {r r' : α → β → Prop} {part : RefOr α} {part' : RefOr β}
    (hr : ∀ a b, r a b → r' a b) (h : Rel r part part') : Rel r' part part' := by
  cases h with
  | ref path => exact .ref path
  | inline h => exact .inline (hr _ _ h)

/-- A part is related to some part if its inline definition is related to something. -/
theorem exists_rel {r : α → β → Prop} {part : RefOr α}
    (h : ∀ a, part = .inline a → ∃ b, r a b) : ∃ part', Rel r part part' := by
  cases part with
  | ref path => exact ⟨.ref path, .ref path⟩
  | inline a =>
    obtain ⟨b, hb⟩ := h a rfl
    exact ⟨.inline b, .inline hb⟩

/-- A part is related to itself if its inline definition is. -/
theorem rel_self {r : α → α → Prop} {part : RefOr α} (h : ∀ a, part = .inline a → r a a) :
    Rel r part part := by
  cases part with
  | ref path => exact .ref path
  | inline a => exact .inline (h a rfl)

/-! ### Of two parts that may be absent

Items may be absent, and then nothing is related to nothing. The lemmas read off one side of
such a pair what the other is. -/

variable {r : α → β → Prop} {o : Option (RefOr α)} {o' : Option (RefOr β)}

/-- Nothing is added, and nothing is lost. -/
theorem isSome_of_rel (h : Option.Rel (Rel r) o o') : o'.isSome = o.isSome := by
  cases h <;> rfl

/-- An inline definition comes from one that is related. -/
theorem exists_of_rel_inline {b : β} (h : Option.Rel (Rel r) o (some (.inline b))) :
    ∃ a, o = some (.inline a) ∧ r a b := by
  cases h with
  | some h =>
    cases h with
    | inline h => exact ⟨_, rfl, h⟩

/-- An inline definition goes into one that is related. -/
theorem exists_of_inline_rel {a : α} (h : Option.Rel (Rel r) (some (.inline a)) o') :
    ∃ b, o' = some (.inline b) ∧ r a b := by
  cases h with
  | some h =>
    cases h with
    | inline h => exact ⟨_, rfl, h⟩

/-- A reference comes from the same reference. -/
theorem eq_ref_of_rel {path : String} (h : Option.Rel (Rel r) o (some (.ref path))) :
    o = some (.ref path) := by
  cases h with
  | some h =>
    cases h with
    | ref => rfl

end RefOr

namespace Schema

/-! ## The parts that are descended into

Neither the members of a composition nor the values of a map are among them. The preparation
does not look at those, so a schema can be changed below a property and stays as it is below
a member. -/

/-- **A schema holds another** as an inline property or as its inline items. -/
inductive Holds (s : Schema) : Schema → Prop
  | property {name : String} {u : Schema} (h : (name, .inline u) ∈ s.properties) : Holds s u
  | items {u : Schema} (h : s.items = some (.inline u)) : Holds s u

/-- A schema that is reached through properties and inline items, the schema itself
included. -/
def Reaches : Schema → Schema → Prop := Relation.ReflTransGen Holds

/-- A schema is one level higher than the highest of its parts. -/
theorem height_eq (s : Schema) :
    s.height = max (propertiesHeight s.properties) (itemsHeight s.items) + 1 := by
  cases s
  rfl

/-- Every schema is a level of its own. -/
theorem height_pos (s : Schema) : 0 < s.height := by
  rw [height_eq]
  exact Nat.succ_pos _

/-- A property is no higher than the properties. -/
theorem partHeight_le_propertiesHeight {ps : List (String × RefOr Schema)} {name : String}
    {part : RefOr Schema} (h : (name, part) ∈ ps) : partHeight part ≤ propertiesHeight ps := by
  induction ps with
  | nil => cases h
  | cons p ps ih =>
    rw [propertiesHeight]
    rcases List.mem_cons.mp h with rfl | h
    · exact Nat.le_max_left _ _
    · exact Nat.le_trans (ih h) (Nat.le_max_right _ _)

/-- **The descent is bounded by the height.** -/
theorem Holds.height_lt {s u : Schema} (h : s.Holds u) : u.height < s.height := by
  rw [s.height_eq, Nat.lt_succ_iff]
  cases h with
  | property h => exact Nat.le_trans (partHeight_le_propertiesHeight h) (Nat.le_max_left _ _)
  | items h =>
    refine Nat.le_trans ?_ (Nat.le_max_right _ _)
    rw [h]
    exact Nat.le_refl _

/-- **Induction along the descent**: what holds of a schema as soon as it holds of all that
the schema holds, holds of every schema. The members of a composition are not covered, as
the descent does not go there. -/
theorem part_induction {P : Schema → Prop} (h : ∀ s, (∀ u, s.Holds u → P u) → P s)
    (s : Schema) : P s := by
  induction hn : s.height using Nat.strongRecOn generalizing s with
  | ind n ih => exact h s (fun u hu => ih u.height (hn ▸ hu.height_lt) u rfl)

/-! ## What a node looks like from above

The frame of a node is all of it but the schemas that its properties and items hold. That
the properties have the same names in the same order is part of it, and so is whether there
are items. -/

/-- **Two nodes look the same**: they differ at most in what their properties and
their items hold. -/
structure SameFrame (s s' : Schema) : Prop where
  facets : s'.toFacets = s.toFacets
  additional : s'.additional = s.additional
  allOf : s'.allOf = s.allOf
  oneOf : s'.oneOf = s.oneOf
  anyOf : s'.anyOf = s.anyOf
  names : s'.properties.map Prod.fst = s.properties.map Prod.fst
  hasItems : s'.items.isSome = s.items.isSome

namespace SameFrame

variable {s s' s'' : Schema}

/-- Every node looks like itself. -/
theorem refl (s : Schema) : s.SameFrame s := ⟨rfl, rfl, rfl, rfl, rfl, rfl, rfl⟩

/-- What looks the same as something that looks the same looks the same. -/
theorem trans (h : s.SameFrame s') (h' : s'.SameFrame s'') : s.SameFrame s'' where
  facets := h'.facets.trans h.facets
  additional := h'.additional.trans h.additional
  allOf := h'.allOf.trans h.allOf
  oneOf := h'.oneOf.trans h.oneOf
  anyOf := h'.anyOf.trans h.anyOf
  names := h'.names.trans h.names
  hasItems := h'.hasItems.trans h.hasItems

/-- Other items instead of items leave the frame as it is. -/
theorem of_items {part part' : RefOr Schema} (h : s.items = some part) :
    s.SameFrame { s with items := some part' } :=
  ⟨rfl, rfl, rfl, rfl, rfl, rfl, by rw [h]; rfl⟩

/-- There are no properties before exactly if there are none after. -/
theorem isEmpty_properties (h : s.SameFrame s') :
    s'.properties.isEmpty = s.properties.isEmpty := by
  rw [← List.isEmpty_map (f := Prod.fst), h.names, List.isEmpty_map]

theorem typeKeyword (h : s.SameFrame s') : s'.typeKeyword = s.typeKeyword :=
  congrArg Facets.typeKeyword h.facets

theorem typeName? (h : s.SameFrame s') : s'.typeName? = s.typeName? := by
  unfold Schema.typeName?
  rw [h.typeKeyword]

/-- Whether it is a composition is told by its members, which are part of the frame. -/
theorem isComposed (h : s.SameFrame s') : s'.isComposed = s.isComposed := by
  unfold Schema.isComposed
  rw [h.allOf, h.oneOf, h.anyOf]

/-- Whether it is an array is told by its type and by whether it has items. -/
theorem isArray (h : s.SameFrame s') : s'.isArray = s.isArray := by
  unfold Schema.isArray
  rw [h.typeName?, h.typeKeyword, h.hasItems]

/-- Whether it is a map is told by its type, and by its properties being none. -/
theorem isMap (h : s.SameFrame s') : s'.isMap = s.isMap := by
  unfold Schema.isMap
  rw [h.typeName?, h.additional, h.isEmpty_properties]

/-- **Nodes that look the same are of one kind.** -/
theorem kind (h : s.SameFrame s') : s'.kind = s.kind := by
  unfold Schema.kind
  rw [h.isArray, h.isMap, h.isComposed, h.typeName?]

/-- A node says nothing exactly if one that looks the same says nothing. -/
theorem shape_eq_empty_iff (h : s.SameFrame s') : s'.shape = .empty ↔ s.shape = .empty := by
  have hu : s'.isUntyped = s.isUntyped := by
    unfold Schema.isUntyped
    rw [h.typeName?]
  have hal : s'.isTypeAlias = s.isTypeAlias := by
    unfold Schema.isTypeAlias
    rw [h.kind, congrArg Facets.enumValues h.facets, h.isEmpty_properties]
  unfold Schema.shape
  rw [h.isArray, h.isMap, h.isComposed, hu, hal, h.isEmpty_properties]
  cases s.isArray with
  | true =>
    -- The items may differ here, but an array says something either way.
    cases s'.hasComposedItems <;> cases s.hasComposedItems <;> simp
  | false => rfl

/-- A node that holds nothing still holds nothing when it looks the same. -/
theorem not_holds {u : Schema} (h : s.SameFrame s') (hps : s.properties = [])
    (hitems : s.items = none) : ¬ s'.Holds u := by
  intro hu
  cases hu with
  | property hmem =>
    have hname := List.mem_map_of_mem (f := Prod.fst) hmem
    rw [h.names, hps] at hname
    cases hname
  | items hit =>
    have hsome := h.hasItems
    rw [hit, hitems] at hsome
    cases hsome

end SameFrame

/-! ## Rewriting what a node holds

A relation on schemas becomes one on nodes. References are related only to themselves, so
whatever is rewritten stays inside the inline parts. -/

/-- **A node whose parts are rewritten**: its references stay, and every inline
property and the inline items are replaced by related ones. -/
structure PartsRel (r : Schema → Schema → Prop) (s s' : Schema) : Prop where
  rest : s' = { s with properties := s'.properties, items := s'.items }
  properties : List.Forall₂ (fun e e' => e'.1 = e.1 ∧ RefOr.Rel r e.2 e'.2)
    s.properties s'.properties
  items : Option.Rel (RefOr.Rel r) s.items s'.items

namespace PartsRel

variable {r : Schema → Schema → Prop} {s s' : Schema}

/-- A rewritten node looks the same. -/
theorem sameFrame (h : PartsRel r s s') : s.SameFrame s' where
  facets := by rw [h.rest]
  additional := by rw [h.rest]
  allOf := by rw [h.rest]
  oneOf := by rw [h.rest]
  anyOf := by rw [h.rest]
  names := by
    rw [← List.forall₂_eq_eq_eq]
    exact List.forall₂_map_left_iff.mpr (List.forall₂_map_right_iff.mpr
      (h.properties.flip.imp (fun _ _ he => he.1)))
  hasItems := RefOr.isSome_of_rel h.items

/-- What is rewritten by one relation is rewritten by any that follows from it. -/
theorem imp {r' : Schema → Schema → Prop} (hr : ∀ u u', r u u' → r' u u')
    (h : PartsRel r s s') : PartsRel r' s s' where
  rest := h.rest
  properties := h.properties.imp (fun _ _ he => ⟨he.1, he.2.imp hr⟩)
  items := by
    have hitems := h.items
    generalize s.items = o at hitems ⊢
    generalize s'.items = o' at hitems ⊢
    cases hitems with
    | some hpart => exact .some (hpart.imp hr)
    | none => exact .none

/-- Inline items come from inline items. -/
theorem exists_items (h : PartsRel r s s') {u' : Schema} (hu : s'.items = some (.inline u')) :
    ∃ u, s.items = some (.inline u) ∧ r u u' :=
  RefOr.exists_of_rel_inline (hu ▸ h.items)

/-- Inline items go into inline items. -/
theorem exists_items_left (h : PartsRel r s s') {u : Schema} (hu : s.items = some (.inline u)) :
    ∃ u', s'.items = some (.inline u') ∧ r u u' :=
  RefOr.exists_of_inline_rel (hu ▸ h.items)

/-- Items that are a reference were that reference. -/
theorem items_eq_ref (h : PartsRel r s s') {path : String} (hi : s'.items = some (.ref path)) :
    s.items = some (.ref path) :=
  RefOr.eq_ref_of_rel (hi ▸ h.items)

/-- What the rewritten node holds comes from what the node held. -/
theorem exists_of_holds (h : PartsRel r s s') {u' : Schema} (hu : s'.Holds u') :
    ∃ u, s.Holds u ∧ r u u' := by
  cases hu with
  | property hmem =>
    obtain ⟨⟨name, part⟩, he, -, hr⟩ := exists_of_mem_of_forall₂ h.properties hmem
    cases hr with
    | inline hr => exact ⟨_, .property he, hr⟩
  | items hit =>
    obtain ⟨u, hs, hr⟩ := h.exists_items hit
    exact ⟨u, .items hs, hr⟩

/-- What the node held goes into what the rewritten node holds. -/
theorem exists_of_holds_left (h : PartsRel r s s') {u : Schema} (hu : s.Holds u) :
    ∃ u', s'.Holds u' ∧ r u u' := by
  cases hu with
  | property hmem =>
    obtain ⟨⟨name, part⟩, he, -, hr⟩ := exists_of_mem_of_forall₂ h.properties.flip hmem
    cases hr with
    | inline hr => exact ⟨_, .property he, hr⟩
  | items hit =>
    obtain ⟨u', hs, hr⟩ := h.exists_items_left hit
    exact ⟨u', .items hs, hr⟩

/-- **A node can be rewritten as soon as all that it holds can.** The parts are found one by
one; the rewritten node is the node with these parts. -/
theorem exists_of_forall (h : ∀ u, s.Holds u → ∃ u', r u u') : ∃ s', PartsRel r s s' := by
  have hps : ∀ e ∈ s.properties,
      ∃ e' : String × RefOr Schema, e'.1 = e.1 ∧ RefOr.Rel r e.2 e'.2 := by
    rintro ⟨name, part⟩ he
    obtain ⟨part', hpart⟩ : ∃ part', RefOr.Rel r part part' :=
      RefOr.exists_rel (fun u hu => h u (.property (hu ▸ he)))
    exact ⟨(name, part'), rfl, hpart⟩
  have hitems : ∃ items', Option.Rel (RefOr.Rel r) s.items items' := by
    cases hs : s.items with
    | none => exact ⟨none, .none⟩
    | some part =>
      obtain ⟨part', hpart⟩ : ∃ part', RefOr.Rel r part part' :=
        RefOr.exists_rel (fun u hu => h u (.items (hu ▸ hs)))
      exact ⟨some part', .some hpart⟩
  obtain ⟨ps', hps'⟩ := exists_forall₂ hps
  obtain ⟨items', hitems'⟩ := hitems
  exact ⟨{ s with properties := ps', items := items' }, rfl, hps', hitems'⟩

/-- A node is rewritten to itself as soon as all that it holds is. -/
theorem of_forall_self (h : ∀ u, s.Holds u → r u u) : PartsRel r s s where
  rest := by cases s; rfl
  properties := by
    refine List.forall₂_same.mpr (fun e he => ⟨rfl, RefOr.rel_self (fun u hu => ?_)⟩)
    obtain ⟨name, part⟩ := e
    cases hu
    exact h u (.property he)
  items := by
    cases hs : s.items with
    | none => exact .none
    | some part => exact .some (RefOr.rel_self (fun u hu => h u (.items (hu ▸ hs))))

/-- If a node is rewritten to itself, so is all that it holds. -/
theorem self_of_holds (h : PartsRel r s s) {u : Schema} (hu : s.Holds u) : r u u := by
  cases hu with
  | property hmem =>
    obtain ⟨-, hr⟩ := List.forall₂_same.mp h.properties _ hmem
    cases hr with
    | inline hr => exact hr
  | items hit =>
    obtain ⟨u', hu, hr⟩ := h.exists_items hit
    cases hit.symm.trans hu
    exact hr

end PartsRel

end Schema

end ClientGen
