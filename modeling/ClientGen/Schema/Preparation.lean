import ClientGen.Schema.Expansion

/-!
# Preparing schemas for conversion

Before a component becomes a model, three steps bring its schema into a form
in which every part has a definite type:

1. a schema that says nothing becomes a text (at the root only),
2. inline items that are a composition become untyped objects,
3. references to containers among the items are put inline
   (`Components.expandItems?`).

The last two are applied to every node that properties and inline items lead
to, those that step 3 has just put in place included. A circle of item
references therefore has no end, and the recursion has an explicit depth: the
result of `prepareWithin?` is absent if the depth does not suffice.
`prepare?` starts with a depth that only a circle exceeds.
-/

namespace ClientGen

/-- Which steps a preparation takes. -/
structure Preparation where
  /-- A schema that says nothing stays as it is. -/
  keepsEmpty : Bool := false
  /-- Items that are a composition become untyped objects. -/
  loosensComposedItems : Bool := false
  /-- Item references to containers are put inline. -/
  expandsItems : Bool := false
deriving DecidableEq, Repr, Inhabited

namespace Schema

/-- A schema that says nothing, as a text. -/
def retypeEmpty? (s : Schema) : Option Schema :=
  if s.shape = .empty then some (s.setType "string") else none

/-- An array of a composition, as an array of untyped objects. -/
def loosenItems? (s : Schema) : Option Schema :=
  if s.shape = .arrayOfComposed then some { s with items := some (.inline untypedObject) }
  else none

mutual

/-- The greatest number of nodes on a way down through properties and items. -/
def height : Schema → Nat
  | ⟨_, properties, _, items, _, _, _⟩ => max (propertiesHeight properties) (itemsHeight items) + 1

/-- The height of a part. A reference has none. -/
def partHeight : RefOr Schema → Nat
  | .ref _ => 0
  | .inline s => height s

/-- The greatest height among the properties. -/
def propertiesHeight : List (String × RefOr Schema) → Nat
  | [] => 0
  | p :: ps => max (propertyHeight p) (propertiesHeight ps)

/-- The height of one property. -/
def propertyHeight : String × RefOr Schema → Nat
  | (_, part) => partHeight part

/-- The height of the items. -/
def itemsHeight : Option (RefOr Schema) → Nat
  | none => 0
  | some part => partHeight part

end

end Schema

namespace Preparation

/-- A step, where it is taken and has something to do. -/
def step (taken : Bool) (change? : Schema → Option Schema) (s : Schema) : Schema :=
  if taken then (change? s).getD s else s

/-- The steps at every node. -/
def node (p : Preparation) (c : Components) (s : Schema) : Schema :=
  step p.expandsItems c.expandItems? (step p.loosensComposedItems Schema.loosenItems? s)

/-- Applies a step to a part that is given inline. -/
def part? (prepare? : Schema → Option Schema) : RefOr Schema → Option (RefOr Schema)
  | .ref path => some (.ref path)
  | .inline s => (prepare? s).map .inline

/-- Applies a step to every property. -/
def properties? (prepare? : Schema → Option Schema) (ps : List (String × RefOr Schema)) :
    Option (List (String × RefOr Schema)) :=
  ps.mapM (fun p => (part? prepare? p.2).map (p.1, ·))

/-- Applies a step to the items. -/
def items? (prepare? : Schema → Option Schema) :
    Option (RefOr Schema) → Option (Option (RefOr Schema))
  | none => some none
  | some part => (part? prepare? part).map some

/-- **Prepares a node and all below it**, at most this deep. -/
def nodesWithin? (p : Preparation) (c : Components) : Nat → Schema → Option Schema
  | 0, _ => none
  | depth + 1, s => do
    -- Below this, the parts that the node has just received are prepared as well.
    let s := p.node c s
    let properties ← properties? (p.nodesWithin? c depth) s.properties
    let items ← items? (p.nodesWithin? c depth) s.items
    return { s with properties, items }

/-- **Prepares a schema**, at most this deep. -/
def prepareWithin? (p : Preparation) (c : Components) (depth : Nat) (s : Schema) :
    Option Schema :=
  p.nodesWithin? c depth (step (!p.keepsEmpty) Schema.retypeEmpty? s)

/-- A depth that suffices unless item references go in a circle: on no way down
does one component occur twice. -/
def depthFor (c : Components) (s : Schema) : Nat :=
  s.height + (c.schemas.values.map Schema.partHeight).foldr (· + ·) 0 + 1

/-- **Prepares a schema.** -/
def prepare? (p : Preparation) (c : Components) (s : Schema) : Option Schema :=
  p.prepareWithin? c (depthFor c s) s

end Preparation

end ClientGen
