import ClientGen.Proofs.Expansion

/-!
# Ways down a schema

A way down a schema is a list of turns, each to a property or to the items, and the
node at its end is `Schema.at?`. Ways say of two schemas that something is *still
there*: the nodes at the end of one way correspond to each other, while the nodes that
are merely reached (`Schema.reaches_iff`) need not.

Two nodes are the same node (`Schema.SameNode`) if they differ at most inside what they
hold: keywords, names and references are the same, and an inline definition stands
where an inline definition stood.
-/

namespace ClientGen

namespace Schema

/-! ## Turns and ways

A property is named by its place as well as its name, since a name may occur twice among the
entries of a schema that was not read from a text. -/

/-- A turn on the way down a schema. -/
inductive Turn where
  /-- To the property of a name, at its place among the properties. -/
  | property (place : Nat) (name : String)
  | items
deriving DecidableEq, Repr

/-- The schema that a schema holds at a turn. -/
def held? (s : Schema) : Turn → Option Schema
  | .property place name =>
    s.properties[place]?.bind (fun e => if e.1 = name then e.2.inline? else none)
  | .items => s.items.bind RefOr.inline?

/-- **The node at the end of a way.** -/
def at? : Schema → List Turn → Option Schema
  | s, [] => some s
  | s, turn :: way => (s.held? turn).bind (fun u => u.at? way)

variable {s s' u u' : Schema} {turn : Turn} {way : List Turn}

/-- The first turn, and then the rest of the way. -/
theorem at?_cons_eq_some :
    s.at? (turn :: way) = some u ↔ ∃ v, s.held? turn = some v ∧ v.at? way = some u := by
  rw [at?, Option.bind_eq_some_iff]

/-- At a property stands what is given inline at that place under that name. -/
theorem held?_property_eq_some {place : Nat} {name : String} :
    s.held? (.property place name) = some u ↔ s.properties[place]? = some (name, .inline u) := by
  unfold held?
  rw [Option.bind_eq_some_iff]
  constructor
  · rintro ⟨⟨name', part⟩, he, h⟩
    split_ifs at h with hname
    cases part with
    | ref path => cases h
    | inline v =>
      cases h
      rw [he, ← hname]
  · intro h
    exact ⟨_, h, if_pos rfl⟩

/-- At the items stands what is given inline there. -/
theorem held?_items_eq_some : s.held? .items = some u ↔ s.items = some (.inline u) := by
  unfold held?
  rw [Option.bind_eq_some_iff]
  constructor
  · rintro ⟨part, hi, h⟩
    cases part with
    | ref path => cases h
    | inline v =>
      cases h
      exact hi
  · intro h
    exact ⟨_, h, rfl⟩

/-- A schema holds what it holds at some turn. -/
theorem holds_iff : s.Holds u ↔ ∃ turn, s.held? turn = some u := by
  constructor
  · intro h
    cases h with
    | @property name _ h =>
      obtain ⟨place, hplace⟩ := List.mem_iff_getElem?.mp h
      exact ⟨.property place name, held?_property_eq_some.mpr hplace⟩
    | items h => exact ⟨.items, held?_items_eq_some.mpr h⟩
  · rintro ⟨turn, h⟩
    cases turn with
    | property place name =>
      exact .property (List.mem_iff_getElem?.mpr ⟨place, held?_property_eq_some.mp h⟩)
    | items => exact .items (held?_items_eq_some.mp h)

/-- **A node is reached exactly if it is at the end of a way.** A step to something held is
a turn, and to put a turn in front of a way is to go on from what is held. -/
theorem reaches_iff : s.Reaches u ↔ ∃ way, s.at? way = some u := by
  constructor
  · intro h
    induction h using Relation.ReflTransGen.head_induction_on with
    | refl => exact ⟨[], rfl⟩
    | head h _ ih =>
      obtain ⟨turn, hturn⟩ := holds_iff.mp h
      obtain ⟨way, hway⟩ := ih
      exact ⟨turn :: way, at?_cons_eq_some.mpr ⟨_, hturn, hway⟩⟩
  · rintro ⟨way, h⟩
    induction way generalizing s with
    | nil =>
      cases h
      exact .refl
    | cons turn way ih =>
      obtain ⟨v, hv, h⟩ := at?_cons_eq_some.mp h
      exact .head (holds_iff.mpr ⟨turn, hv⟩) (ih h)

/-! ## The same node

What remains of a node when everything that it holds inline is left open. References count
among what remains: they are not rewritten. -/

/-- **Two nodes are the same** up to what they hold inline. -/
structure SameNode (s s' : Schema) : Prop where
  rest : s' = { s with properties := s'.properties, items := s'.items }
  properties : s'.properties.map (fun e => (e.1, e.2.path?))
    = s.properties.map (fun e => (e.1, e.2.path?))
  items : s'.items.map RefOr.path? = s.items.map RefOr.path?

namespace SameNode

/-- Two nodes that are the same as a third one are the same. -/
theorem trans {s'' : Schema} (h : s.SameNode s') (h' : s'.SameNode s'') : s.SameNode s'' where
  rest := by rw [h'.rest, h.rest]
  properties := h'.properties.trans h.properties
  items := h'.items.trans h.items

/-- Inline items in the place of inline items leave the node the same. -/
theorem of_items (h : s.items = some (.inline u)) :
    s.SameNode { s with items := some (.inline u') } :=
  ⟨rfl, rfl, by rw [h]; rfl⟩

/-- A reference among the items is in the same node. -/
theorem items_eq_ref {path : String} (h : s.SameNode s') (hi : s.items = some (.ref path)) :
    s'.items = some (.ref path) := by
  have hitems := h.items
  rw [hi] at hitems
  obtain ⟨part, hpart, hpath⟩ := Option.map_eq_some_iff.mp hitems
  cases part with
  | ref path' =>
    cases hpath
    exact hpart
  | inline v => cases hpath

end SameNode

end Schema

/-! ## Rewritten nodes

A node whose parts are related (`Schema.PartsRel`) is the same node, and turn by turn holds
related schemas. By induction along a way this reaches any node below. -/

/-- Members of related lists that stand at one place are related. -/
theorem getElem?_rel_of_forall₂ {α β : Type} {r : α → β → Prop} {l : List α} {l' : List β}
    (h : List.Forall₂ r l l') (i : Nat) : Option.Rel r l[i]? l'[i]? := by
  induction h generalizing i with
  | nil => exact .none
  | cons hab _ ih =>
    cases i with
    | zero => exact .some hab
    | succ i => exact ih i

namespace RefOr

variable {α β : Type} {r : α → β → Prop} {part : RefOr α} {part' : RefOr β}

/-- Related parts are the same reference, or both none. -/
theorem Rel.path?_eq (h : Rel r part part') : part'.path? = part.path? := by
  cases h <;> rfl

/-- Related parts have related inline definitions, or both none. -/
theorem Rel.inline?_rel (h : Rel r part part') : Option.Rel r part.inline? part'.inline? := by
  cases h with
  | ref path => exact .none
  | inline h => exact .some h

end RefOr

namespace Schema

variable {s s' u u' : Schema} {turn : Turn} {way : List Turn} {r : Schema → Schema → Prop}

namespace PartsRel

/-- A node whose parts are rewritten is the same node. -/
theorem sameNode (h : PartsRel r s s') : s.SameNode s' where
  rest := h.rest
  properties := by
    rw [← List.forall₂_eq_eq_eq]
    refine List.forall₂_map_left_iff.mpr (List.forall₂_map_right_iff.mpr
      (h.properties.flip.imp (fun e' e he => ?_)))
    rw [he.1, he.2.path?_eq]
  items := by
    have hitems := h.items
    generalize s.items = o at hitems ⊢
    generalize s'.items = o' at hitems ⊢
    cases hitems with
    | some hpart => exact congrArg some hpart.path?_eq
    | none => rfl

/-- **At every turn the rewritten node holds what the node held, rewritten.** Properties are
found by place and by name, so that the two sides are compared at the same place. -/
theorem held?_rel (h : PartsRel r s s') (turn : Turn) :
    Option.Rel r (s.held? turn) (s'.held? turn) := by
  cases turn with
  | property place name =>
    have hplace := getElem?_rel_of_forall₂ h.properties place
    rw [held?, held?]
    generalize s.properties[place]? = o at hplace ⊢
    generalize s'.properties[place]? = o' at hplace ⊢
    cases hplace with
    | none => exact .none
    | @some e e' he =>
      obtain ⟨hname, hpart⟩ := he
      rw [Option.bind_some, Option.bind_some, hname]
      split_ifs
      · exact hpart.inline?_rel
      · exact .none
  | items =>
    have hitems := h.items
    rw [held?, held?]
    generalize s.items = o at hitems ⊢
    generalize s'.items = o' at hitems ⊢
    cases hitems with
    | some hpart => exact hpart.inline?_rel
    | none => exact .none

/-- What the node held at a turn is rewritten to what the other holds there. -/
theorem exists_held? (h : PartsRel r s s') (hu : s.held? turn = some u) :
    ∃ u', s'.held? turn = some u' ∧ r u u' := by
  have hrel := h.held?_rel turn
  rw [hu] at hrel
  generalize s'.held? turn = o at hrel ⊢
  cases hrel with
  | some hr => exact ⟨_, rfl, hr⟩

/-- What the rewritten node holds at a turn comes from what the other held there. -/
theorem exists_of_held? (h : PartsRel r s s') (hu : s'.held? turn = some u') :
    ∃ u, s.held? turn = some u ∧ r u u' := by
  have hrel := h.held?_rel turn
  rw [hu] at hrel
  generalize s.held? turn = o at hrel ⊢
  cases hrel with
  | some hr => exact ⟨_, rfl, hr⟩

end PartsRel

end Schema

end ClientGen
