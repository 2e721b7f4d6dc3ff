import ClientGen.Proofs.Expansion

/-!
# What the preparation does to a schema

The preparation is a descent. `Preparation.nodesWithin?_succ_eq_some` says what
one level of it does: the steps at the node, and then everything that the node
holds by then, prepared one level less deep. All statements about the result are
inductions along that equation.

Neither the steps nor the descent change what a node looks like from above
(`Preparation.nodesWithin?_sameFrame`), and every node of the result is settled: no
reference to a container is left among the items of an array
(`Preparation.settled_of_reaches`).
-/

namespace ClientGen

variable {c : Components} {s s' : Schema}

/-- A computation over a list has a result if it has one at every element. -/
theorem option_mapM_eq_some {α β : Type} {f : α → Option β} {l : List α} {l' : List β} :
    l.mapM f = some l' ↔ List.Forall₂ (fun a b => f a = some b) l l' := by
  induction l generalizing l' with
  | nil => simp [eq_comm]
  | cons a l ih =>
    rw [List.mapM_cons, Option.bind_eq_bind, Option.bind_eq_some_iff,
      List.forall₂_cons_left_iff]
    refine exists_congr (fun b => ?_)
    rw [Option.bind_eq_bind, Option.bind_eq_some_iff]
    constructor
    · rintro ⟨ha, l', hl, h⟩
      exact ⟨l', ha, ih.mp hl, (Option.some.inj h).symm⟩
    · rintro ⟨l', ha, hl, rfl⟩
      exact ⟨ha, l', ih.mpr hl, rfl⟩

namespace Preparation

open Schema

variable {p : Preparation}

/-! ## One level of the descent

The descent is a computation on the properties and on the items, whose elements are parts:
references, which are kept, and schemas, which are prepared. Each of the two has a result if
all its elements do, and the relations say which elements belong together. Put together these
are one equation, behind which no proof has to look at the computation again. -/

/-- A part is prepared if it is a reference, or if its schema is prepared. -/
theorem part?_eq_some {f : Schema → Option Schema} {part part' : RefOr Schema} :
    part? f part = some part' ↔ RefOr.Rel (fun u u' => f u = some u') part part' := by
  cases part with
  | ref path =>
    constructor
    · intro h
      cases h
      exact .ref path
    · intro h
      cases h
      rfl
  | inline u =>
    constructor
    · intro h
      obtain ⟨u', hu, rfl⟩ := Option.map_eq_some_iff.mp h
      exact .inline hu
    · intro h
      cases h with
      | inline hu => exact Option.map_eq_some_iff.mpr ⟨_, hu, rfl⟩

/-- Properties are prepared one by one, and keep their names. -/
theorem properties?_eq_some {f : Schema → Option Schema} {ps ps' : List (String × RefOr Schema)} :
    properties? f ps = some ps'
      ↔ List.Forall₂ (fun e e' => e'.1 = e.1 ∧ RefOr.Rel (fun u u' => f u = some u') e.2 e'.2)
          ps ps' := by
  have hentry : ∀ e e' : String × RefOr Schema,
      (part? f e.2).map (e.1, ·) = some e'
        ↔ e'.1 = e.1 ∧ RefOr.Rel (fun u u' => f u = some u') e.2 e'.2 := by
    rintro ⟨name, part⟩ ⟨name', part'⟩
    rw [Option.map_eq_some_iff]
    constructor
    · rintro ⟨_, hpart, h⟩
      cases h
      exact ⟨rfl, part?_eq_some.mp hpart⟩
    · rintro ⟨rfl, hpart⟩
      exact ⟨part', part?_eq_some.mpr hpart, rfl⟩
  unfold properties?
  rw [option_mapM_eq_some]
  constructor
  · exact fun h => h.imp (fun e e' => (hentry e e').mp)
  · exact fun h => h.imp (fun e e' => (hentry e e').mpr)

/-- Items are prepared if there are any. -/
theorem items?_eq_some {f : Schema → Option Schema} {items items' : Option (RefOr Schema)} :
    items? f items = some items'
      ↔ Option.Rel (RefOr.Rel (fun u u' => f u = some u')) items items' := by
  cases items with
  | none =>
    constructor
    · intro h
      cases h
      exact .none
    · intro h
      cases h
      rfl
  | some part =>
    constructor
    · intro h
      obtain ⟨part', hpart, rfl⟩ := Option.map_eq_some_iff.mp h
      exact .some (part?_eq_some.mp hpart)
    · intro h
      cases h with
      | some hpart => exact Option.map_eq_some_iff.mpr ⟨_, part?_eq_some.mpr hpart, rfl⟩

/-- **One level of the descent**: the steps at the node, and then everything that the node
holds, prepared one level less deep. References among the parts are kept as they are, so the
relation is that of the parts with their schemas. -/
theorem nodesWithin?_succ_eq_some {depth : Nat} :
    p.nodesWithin? c (depth + 1) s = some s'
      ↔ PartsRel (fun u u' => p.nodesWithin? c depth u = some u') (p.node c s) s' := by
  rw [nodesWithin?]
  simp only [Option.bind_eq_bind, Option.bind_eq_some_iff]
  constructor
  · rintro ⟨ps, hps, items, hitems, h⟩
    cases h
    exact ⟨rfl, properties?_eq_some.mp hps, items?_eq_some.mp hitems⟩
  · intro h
    exact ⟨_, properties?_eq_some.mpr h.properties, _, items?_eq_some.mpr h.items,
      congrArg some h.rest.symm⟩

/-- **What the node holds decides**: it is prepared as soon as all that it holds after the
steps can be prepared one level less deep. -/
theorem exists_nodesWithin?_succ {depth : Nat}
    (h : ∀ u, (p.node c s).Holds u → ∃ u', p.nodesWithin? c depth u = some u') :
    ∃ s', p.nodesWithin? c (depth + 1) s = some s' := by
  obtain ⟨s', hs⟩ := PartsRel.exists_of_forall h
  exact ⟨s', nodesWithin?_succ_eq_some.mpr hs⟩

/-- **A greater depth changes nothing** about a result. So one may speak of the result of
the descent, whatever depth it was reached with. -/
theorem nodesWithin?_mono {depth depth' : Nat} (hdepth : depth ≤ depth')
    (h : p.nodesWithin? c depth s = some s') : p.nodesWithin? c depth' s = some s' := by
  induction depth generalizing depth' s s' with
  | zero => cases h
  | succ depth ih =>
    obtain ⟨depth', rfl⟩ := Nat.exists_eq_add_of_le' (Nat.lt_of_lt_of_le (Nat.succ_pos _) hdepth)
    exact nodesWithin?_succ_eq_some.mpr
      ((nodesWithin?_succ_eq_some.mp h).imp (fun _ _ => ih (Nat.le_of_succ_le_succ hdepth)))

end Preparation

/-! ## The steps at a node

At a node at most one thing is put in the place of its items: the untyped object for a
composition, or the container for a reference to it. Everything else about the node stays. -/

namespace Schema

/-- An array of compositions is one whose items are an inline composition. A reference to a
composition does not count. -/
theorem shape_eq_arrayOfComposed_iff :
    s.shape = .arrayOfComposed
      ↔ s.isArray = true ∧ ∃ u, s.items = some (.inline u) ∧ u.isComposed = true := by
  have hitems : s.hasComposedItems = true
      ↔ ∃ u, s.items = some (.inline u) ∧ u.isComposed = true := by
    unfold hasComposedItems
    rcases s.items with _ | path | u <;> simp
  rw [← hitems]
  unfold shape
  cases s.isArray with
  | true => cases s.hasComposedItems <;> simp
  | false =>
    simp only [Bool.false_eq_true, if_false, false_and, iff_false]
    split_ifs <;> exact nofun

/-- Loosening puts the untyped object in the place of a composition. -/
theorem loosenItems?_eq_some :
    s.loosenItems? = some s'
      ↔ s.shape = .arrayOfComposed ∧ s' = { s with items := some (.inline untypedObject) } := by
  unfold loosenItems?
  split_ifs with h
  · simp [h, eq_comm]
  · simp [h]

/-- Loosening changes the items only. -/
theorem sameFrame_of_loosenItems? (h : s.loosenItems? = some s') : s.SameFrame s' := by
  obtain ⟨hshape, rfl⟩ := loosenItems?_eq_some.mp h
  obtain ⟨-, u, hu, -⟩ := shape_eq_arrayOfComposed_iff.mp hshape
  exact .of_items hu

end Schema

namespace Preparation

open Schema

variable {p : Preparation}

/-- What holds of a schema and of what the step makes of it, holds after the
step. -/
theorem step_induction {P : Schema → Prop} {taken : Bool} {change? : Schema → Option Schema}
    (hs : P s) (hsome : ∀ s', change? s = some s' → P s') : P (step taken change? s) := by
  unfold step
  split_ifs
  · cases h : change? s with
    | none => exact hs
    | some s' => exact hsome s' h
  · exact hs

/-- The steps at a node leave its frame alone. -/
theorem node_sameFrame : s.SameFrame (p.node c s) := by
  have hloosen : s.SameFrame (step p.loosensComposedItems loosenItems? s) :=
    step_induction (.refl s) (fun _ => sameFrame_of_loosenItems?)
  exact hloosen.trans
    (step_induction (.refl _) (fun _ h => (Components.expandItems?_expands h).sameFrame))

/-- **Preparing a node leaves its frame alone.** -/
theorem nodesWithin?_sameFrame {depth : Nat} (h : p.nodesWithin? c depth s = some s') :
    s.SameFrame s' := by
  cases depth with
  | zero => cases h
  | succ depth => exact node_sameFrame.trans (nodesWithin?_succ_eq_some.mp h).sameFrame

/-- The untyped object holds nothing, so it is prepared at any depth but none. -/
theorem exists_nodesWithin?_untypedObject (depth : Nat) :
    ∃ s', p.nodesWithin? c (depth + 1) untypedObject = some s' :=
  exists_nodesWithin?_succ (fun _ hu => absurd hu (node_sameFrame.not_holds rfl rfl))

/-- A composition among the items gives way to the untyped object, and nothing is expanded
then: the items are no reference, neither before nor after. -/
theorem node_of_arrayOfComposed (hl : p.loosensComposedItems = true)
    (h : s.shape = .arrayOfComposed) :
    p.node c s = { s with items := some (.inline untypedObject) } := by
  have hloosen : step p.loosensComposedItems loosenItems? s
      = { s with items := some (.inline untypedObject) } := by
    rw [step, if_pos hl, loosenItems?_eq_some.mpr ⟨h, rfl⟩]
    rfl
  rw [node, hloosen]
  refine step_induction (P := (· = _)) rfl (fun s' hs => ?_)
  obtain ⟨-, ⟨path, t, hi, -⟩ | ⟨u, u', hi, hu, -⟩⟩ := expandWith?_eq_some.mp hs
  · cases hi
  · cases hi
    cases hu

/-- Anywhere else a node is expanded as it is. -/
theorem node_of_not_arrayOfComposed
    (h : ¬ (p.loosensComposedItems = true ∧ s.shape = .arrayOfComposed)) :
    p.node c s = step p.expandsItems c.expandItems? s := by
  have hloosen : step p.loosensComposedItems loosenItems? s = s := by
    unfold step
    split_ifs with hl
    · rw [loosenItems?, if_neg (fun hshape => h ⟨hl, hshape⟩)]
      rfl
    · rfl
  rw [node, hloosen]

/-- A node with nothing to loosen and nothing to expand stays as it is. -/
theorem node_eq_self (h : ¬ (p.loosensComposedItems = true ∧ s.shape = .arrayOfComposed))
    (hs : c.expandItems? s = none) : p.node c s = s := by
  rw [node_of_not_arrayOfComposed h, step, hs]
  split_ifs <;> rfl

/-- Where compositions are not loosened, the steps at a node only expand it. -/
theorem node_expands (hl : p.loosensComposedItems = false) : c.Expands s (p.node c s) := by
  have hnot : ¬ (p.loosensComposedItems = true ∧ s.shape = .arrayOfComposed) := by
    rw [hl]
    exact fun h => nomatch h.1
  rw [node_of_not_arrayOfComposed hnot]
  exact step_induction (P := c.Expands s) (.refl s) (fun _ => Components.expandItems?_expands)

/-- The steps settle a node, where item references are expanded. -/
theorem node_settled (hp : p.expandsItems = true) : c.Settled (p.node c s) := by
  rw [node, step, if_pos hp]
  exact Components.settled_of_expandItems?

/-! ## What is left in the result

The steps settle the node that they are taken at. Further down the descent takes them again,
so the statement goes from the nodes that the result is made of to all that it reaches. -/

/-- **Every node of the result is settled.** By induction on the depth: the root is settled
by its own steps, and the descent leaves its frame alone; everything else is reached through
a part. -/
theorem settled_of_reaches (hp : p.expandsItems = true) {depth : Nat}
    (h : p.nodesWithin? c depth s = some s') : ∀ u, s'.Reaches u → c.Settled u := by
  induction depth generalizing s s' with
  | zero => cases h
  | succ depth ih =>
    have hparts := nodesWithin?_succ_eq_some.mp h
    intro u hu
    rcases Relation.ReflTransGen.cases_head hu with rfl | ⟨v, hv, hu⟩
    · intro ha path hi
      rw [hparts.sameFrame.isArray] at ha
      exact node_settled hp ha path (hparts.items_eq_ref hi)
    · obtain ⟨w, -, hw⟩ := hparts.exists_of_holds hv
      exact ih hw u hu

end Preparation

end ClientGen
