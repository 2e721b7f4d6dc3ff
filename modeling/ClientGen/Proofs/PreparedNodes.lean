import ClientGen.Proofs.Endlessness
import ClientGen.Proofs.Inlining
import ClientGen.Proofs.Ways

/-!
# The nodes of a prepared schema

What a preparation leaves where it was, said for the node at the end of every way.

With the expansion of item references, no array of the result has items that are a
reference to a container, and every reference to something else is still where it was,
unless it stood inside a composition that was loosened (`Preparation.prepare?_settles`).

Without the expansion the components do not matter and a preparation always ends. The
result is the schema, its root retyped if it said nothing, with untyped objects in the
place of the compositions among the items of its arrays, and nothing else is different
(`Preparation.Loosens`); such a result is a result of itself
(`Preparation.prepare?_loosens`).
-/

namespace ClientGen

open Schema

variable {c : Components} {s s' u u' : Schema} {turn : Turn} {way : List Turn}

/-! ## References that stay

Only references to containers are taken away from items. Along a way that leads to any other
reference an expansion may change schemas, but it does not change where the way leads. -/

namespace Components

/-- **An expansion leaves a reference to no container where it was.** By induction on the
rules of the expansion; what is expanded is at the front of the way if it is on it at all,
and there the reference would have been to a container. -/
theorem Expands.items_ref {path : String} (hc : c.containerAt? path = none)
    (h : c.Expands s s') (hu : s.at? way = some u) (hi : u.items = some (.ref path)) :
    ∃ u', s'.at? way = some u' ∧ u'.items = some (.ref path) := by
  induction h generalizing way with
  | refl => exact ⟨u, hu, hi⟩
  | @target s t t' path' ha hs ht h ih =>
    cases way with
    | nil =>
      cases hu
      cases hs.symm.trans hi
      rw [hc] at ht
      cases ht
    | cons turn way =>
      cases turn with
      | property place name => exact ⟨u, hu, hi⟩
      | items =>
        obtain ⟨v, hv, -⟩ := at?_cons_eq_some.mp hu
        rw [held?_items_eq_some, hs] at hv
        cases hv
  | @nested s v v' ha hs h ih =>
    cases way with
    | nil =>
      cases hu
      cases hs.symm.trans hi
    | cons turn way =>
      cases turn with
      | property place name => exact ⟨u, hu, hi⟩
      | items =>
        obtain ⟨w, hw, hu⟩ := at?_cons_eq_some.mp hu
        rw [held?_items_eq_some, hs] at hw
        cases hw
        obtain ⟨u', hu', hi'⟩ := ih hu
        exact ⟨u', at?_cons_eq_some.mpr ⟨v', rfl, hu'⟩, hi'⟩

end Components

namespace Preparation

variable {p : Preparation}

/-- **The descent leaves a reference to no container where it was**, where compositions are
not loosened. By induction on the way: the steps at the node leave it there, and the descent
goes on along the way. -/
theorem nodesWithin?_items_ref (hl : p.loosensComposedItems = false) {path : String}
    (hc : c.containerAt? path = none) {depth : Nat} (h : p.nodesWithin? c depth s = some s')
    (hu : s.at? way = some u) (hi : u.items = some (.ref path)) :
    ∃ u', s'.at? way = some u' ∧ u'.items = some (.ref path) := by
  induction way generalizing depth s s' u with
  | nil =>
    cases depth with
    | zero => cases h
    | succ depth =>
      obtain ⟨v, hv, hi⟩ := (node_expands hl).items_ref hc hu hi
      cases hv
      exact ⟨s', rfl, (nodesWithin?_succ_eq_some.mp h).sameNode.items_eq_ref hi⟩
  | cons turn way ih =>
    cases depth with
    | zero => cases h
    | succ depth =>
      obtain ⟨v, hv, hi⟩ := (node_expands hl).items_ref hc hu hi
      obtain ⟨w, hw, hv⟩ := at?_cons_eq_some.mp hv
      obtain ⟨w', hw', hww⟩ := (nodesWithin?_succ_eq_some.mp h).exists_held? hw
      obtain ⟨u', hu', hi'⟩ := ih hww hv hi
      exact ⟨u', at?_cons_eq_some.mpr ⟨w', hw', hu'⟩, hi'⟩

/-- The root has the items of the schema, and so has every node below it. -/
theorem root_items_ref {path : String} (hu : s.at? way = some u)
    (hi : u.items = some (.ref path)) :
    ∃ u', (p.root s).at? way = some u' ∧ u'.items = some (.ref path) := by
  obtain ⟨hps, hitems, -⟩ := p.root_parts s
  cases way with
  | nil =>
    cases hu
    exact ⟨p.root s, rfl, hitems.trans hi⟩
  | cons turn way =>
    obtain ⟨v, hv, hu⟩ := at?_cons_eq_some.mp hu
    refine ⟨u, at?_cons_eq_some.mpr ⟨v, ?_, hu⟩, hi⟩
    cases turn with
    | property place name => rwa [held?_property_eq_some, hps, ← held?_property_eq_some]
    | items => rwa [held?_items_eq_some, hitems, ← held?_items_eq_some]

/-- There is no container behind a reference if the schema that it leads to, if any, is
neither an array nor a map. -/
theorem containerAt?_eq_none_iff_kind {path : String} :
    c.containerAt? path = none
      ↔ ∀ t, c.schemaAt path = .ok t → t.kind ≠ .array ∧ t.kind ≠ .map := by
  unfold Components.containerAt? isContainer
  cases c.schemaAt path with
  | error e => simp
  | ok t => simp

/-- **What a preparation does to item references**, where they are acyclic and put
inline. It ends. No array of the result has items that are a reference to an array or a
map. And where compositions are not loosened, a reference to anything else, or to
nothing, is still the items at the end of the way at which it was.

The third part is restricted to preparations that do not loosen, since a composition that
gives way takes its references with it. -/
theorem prepare?_settles (hp : p.expandsItems = true) (hc : c.ItemsAcyclic) (s : Schema) :
    ∃ s', p.prepare? c s = some s'
      ∧ (∀ u path t, s'.Reaches u → u.isArray = true → u.items = some (.ref path) →
          c.schemaAt path = .ok t → t.kind ≠ .array ∧ t.kind ≠ .map)
      ∧ (p.loosensComposedItems = false → ∀ way u path, s.at? way = some u →
          u.items = some (.ref path) →
          (∀ t, c.schemaAt path = .ok t → t.kind ≠ .array ∧ t.kind ≠ .map) →
          ∃ u', s'.at? way = some u' ∧ u'.items = some (.ref path)) := by
  obtain ⟨s', h⟩ := exists_prepare? hc p s
  refine ⟨s', h, ?_, ?_⟩
  · intro u path t hu ha hi ht
    exact containerAt?_eq_none_iff_kind.mp (settled_of_reaches hp h u hu ha path hi) t ht
  · intro hl way u path hu hi hnot
    obtain ⟨v, hv, hi⟩ := root_items_ref (p := p) hu hi
    exact nodesWithin?_items_ref hl (containerAt?_eq_none_iff_kind.mpr hnot) h hv hi

/-- A record of an array of maps and an array of nothing that is there. -/
def shelf : Schema where
  properties := [("labels", .inline labelSets),
    ("others", .inline { Schema.ofType "array" with
      items := some (.ref "#/components/schemas/Others") })]

/-- A reference that leads nowhere stays at the items of its property, next to an array
whose items are put inline. -/
theorem prepare?_settles_of_shelf :
    (labelComponents plainLabels).ItemsAcyclic
      ∧ ∃ s', prepare? ⟨false, false, true⟩ (labelComponents plainLabels) shelf = some s'
        ∧ (∀ u path t, s'.Reaches u → u.isArray = true → u.items = some (.ref path) →
            (labelComponents plainLabels).schemaAt path = .ok t →
            t.kind ≠ .array ∧ t.kind ≠ .map)
        ∧ ∃ u', s'.at? [.property 1 "others"] = some u'
          ∧ u'.items = some (.ref "#/components/schemas/Others") := by
  have hc : (labelComponents plainLabels).ItemsAcyclic :=
    itemsAcyclic_labelComponents (by decide) rfl rfl
  obtain ⟨s', h, hsettled, hkept⟩ := prepare?_settles (p := ⟨false, false, true⟩) rfl hc shelf
  refine ⟨hc, s', h, hsettled, hkept rfl [.property 1 "others"] _ _ rfl rfl (fun t ht => ?_)⟩
  have hnone : (labelComponents plainLabels).containerAt? "#/components/schemas/Others" = none := by
    rw [Option.eq_none_iff_forall_ne_some]
    intro t ht
    obtain ⟨name, hname, hpath⟩ := Components.names_of_containerAt? ht
    obtain rfl : name = "Labels" := List.mem_singleton.mp hname
    revert hpath
    decide
  exact containerAt?_eq_none_iff_kind.mp hnone t ht

/-! ## Loosening alone

Without the expansion the descent never leaves the schema. Then the result can be compared
with the schema at the end of every way, and a way that is there afterwards was there
before, except that it may now end at an untyped object. -/

/-- **A schema with its compositions loosened**, and nothing else changed. At the end
of every way in the result stands the same node as before, or, if compositions are
loosened, the untyped object that has taken the place of a composition among the items
of an array. -/
def Loosens (p : Preparation) (s s' : Schema) : Prop :=
  ∀ way u', s'.at? way = some u' →
    (∃ u, s.at? way = some u ∧ u.SameNode u')
      ∨ p.loosensComposedItems = true ∧ u' = untypedObject
        ∧ ∃ front u, way = front ++ [.items] ∧ s.at? front = some u ∧ u.shape = .arrayOfComposed

/-- Without the expansion the components do not matter. -/
theorem nodesWithin?_congr (hp : p.expandsItems = false) (c c' : Components) (depth : Nat)
    (s : Schema) : p.nodesWithin? c depth s = p.nodesWithin? c' depth s := by
  have hnode : p.node c = p.node c' := by
    funext s
    rw [node, node, hp, step_of_not_taken, step_of_not_taken]
  induction depth generalizing s with
  | zero => rfl
  | succ depth ih =>
    rw [nodesWithin?, nodesWithin?, hnode, funext ih]

/-- The untyped object stays as it is: it holds nothing, and the steps find nothing to do. -/
theorem eq_untypedObject (hp : p.expandsItems = false) {depth : Nat}
    (h : p.nodesWithin? c depth untypedObject = some s') : s' = untypedObject := by
  cases depth with
  | zero => cases h
  | succ depth =>
    have hparts := nodesWithin?_succ_eq_some.mp h
    obtain ⟨-, hshape, -⟩ | ⟨-, hnode⟩ := node_eq (c := c) hp untypedObject
    · cases hshape
    · rw [hnode] at hparts
      have hps := hparts.properties
      have hitems := hparts.items
      rw [hparts.rest, List.forall₂_nil_left_iff.mp hps]
      cases hs : s'.items with
      | none => rfl
      | some part =>
        rw [hs] at hitems
        cases hitems

/-- What is loosened below a turn is loosened below the schema. -/
theorem Loosens.of_held? {v v' : Schema} (h : p.Loosens v v') (hv : s.held? turn = some v)
    (hu : v'.at? way = some u') :
    (∃ u, s.at? (turn :: way) = some u ∧ u.SameNode u')
      ∨ p.loosensComposedItems = true ∧ u' = untypedObject
        ∧ ∃ front u, turn :: way = front ++ [.items] ∧ s.at? front = some u
          ∧ u.shape = .arrayOfComposed := by
  rcases h way u' hu with ⟨u, hu, hsame⟩ | ⟨hl, rfl, front, u, rfl, hu, hshape⟩
  · exact Or.inl ⟨u, at?_cons_eq_some.mpr ⟨v, hv, hu⟩, hsame⟩
  · exact Or.inr ⟨hl, rfl, turn :: front, u, rfl, at?_cons_eq_some.mpr ⟨v, hv, hu⟩, hshape⟩

/-- **Without the expansion the descent loosens**, and does nothing else. By induction on
the depth, for all ways: the first turn leads into a part, which is loosened by itself, or
to the untyped object, from which there is no further turn. -/
theorem nodesWithin?_loosens (hp : p.expandsItems = false) {depth : Nat}
    (h : p.nodesWithin? c depth s = some s') : p.Loosens s s' := by
  induction depth generalizing s s' with
  | zero => cases h
  | succ depth ih =>
    have hparts := nodesWithin?_succ_eq_some.mp h
    intro way u' hu'
    obtain ⟨hl, hshape, hnode⟩ | ⟨-, hnode⟩ := node_eq (c := c) hp s
    · rw [hnode] at hparts
      obtain ⟨-, w, hw, -⟩ := shape_eq_arrayOfComposed_iff.mp hshape
      cases way with
      | nil =>
        cases hu'
        exact Or.inl ⟨s, rfl, (SameNode.of_items hw).trans hparts.sameNode⟩
      | cons turn way =>
        obtain ⟨v', hv', hway⟩ := at?_cons_eq_some.mp hu'
        obtain ⟨v, hv, hvv⟩ := hparts.exists_of_held? hv'
        cases turn with
        | property place name => exact (ih hvv).of_held? hv hway
        | items =>
          -- Here the untyped object stands, and nothing below it.
          cases hv
          obtain rfl := eq_untypedObject hp hvv
          cases way with
          | nil =>
            cases hway
            exact Or.inr ⟨hl, rfl, [], s, rfl, rfl, hshape⟩
          | cons turn way =>
            obtain ⟨w, hw, -⟩ := at?_cons_eq_some.mp hway
            exact absurd (holds_iff.mpr ⟨turn, hw⟩) ((SameFrame.refl _).not_holds rfl rfl)
    · rw [hnode] at hparts
      cases way with
      | nil =>
        cases hu'
        exact Or.inl ⟨s, rfl, hparts.sameNode⟩
      | cons turn way =>
        obtain ⟨v', hv', hu'⟩ := at?_cons_eq_some.mp hu'
        obtain ⟨v, hv, hvv⟩ := hparts.exists_of_held? hv'
        exact (ih hvv).of_held? hv hu'

/-- **No array of a composition is left**, where compositions are loosened and nothing is
expanded. The steps see to it at the node, and the descent changes no shape above. -/
theorem shape_ne_arrayOfComposed_of_reaches (hp : p.expandsItems = false)
    (hl : p.loosensComposedItems = true) {depth : Nat}
    (h : p.nodesWithin? c depth s = some s') (hu : s'.Reaches u) :
    u.shape ≠ .arrayOfComposed := by
  induction depth generalizing s s' with
  | zero => cases h
  | succ depth ih =>
    have hparts := nodesWithin?_succ_eq_some.mp h
    rcases Relation.ReflTransGen.cases_head hu with rfl | ⟨v', hv', hu⟩
    · rw [Ne, shape_eq_arrayOfComposed_of_partsRel (fun _ _ => nodesWithin?_sameFrame) hparts]
      obtain ⟨-, -, hnode⟩ | ⟨hnot, hnode⟩ := node_eq (c := c) hp s
      · rw [hnode, shape_eq_arrayOfComposed_iff]
        rintro ⟨-, w, hw, hcomposed⟩
        cases hw
        cases hcomposed
      · rw [hnode]
        exact fun hshape => hnot ⟨hl, hshape⟩
    · obtain ⟨v, -, hvv⟩ := hparts.exists_of_holds hv'
      exact ih hvv hu

/-- **A result of the descent without expansion is a result of itself**, since there is
nothing left to loosen anywhere below it. -/
theorem nodesWithin?_self (hp : p.expandsItems = false) {depth depth' : Nat}
    (h : p.nodesWithin? c depth s = some s') (hdepth : s'.height ≤ depth') :
    p.nodesWithin? c depth' s' = some s' := by
  have hsettled : ∀ u, s'.Reaches u → Components.Settled {} u := by
    intro u _ _ path _
    rw [Option.eq_none_iff_forall_ne_some]
    exact fun t ht => absurd (Components.mem_inlineSchemas_of_containerAt? ht) List.not_mem_nil
  rw [nodesWithin?_congr hp c {}]
  exact (nodesWithin?_self_iff hsettled hdepth).mpr
    (fun u hu hshape => shape_ne_arrayOfComposed_of_reaches hp hshape.1 h hu hshape.2)

/-- The root is the schema, or the schema with the type of a text if it said nothing. -/
theorem root_eq (p : Preparation) (s : Schema) :
    p.root s = s ∨ p.keepsEmpty = false ∧ s.shape = .empty ∧ p.root s = s.setType "string" := by
  unfold root step retypeEmpty?
  cases p.keepsEmpty with
  | true => exact Or.inl rfl
  | false =>
    simp only [Bool.not_false, if_true]
    split_ifs with hempty
    · exact Or.inr ⟨trivial, hempty, rfl⟩
    · exact Or.inl rfl

/-- **What a preparation without expansion does.** It ends, and a second one changes
nothing. Its result says something, unless schemas that say nothing are kept, and where
compositions are loosened it has no array of a composition. Apart from that it is the
schema: the root may have the type of a text instead of saying nothing, and the untyped
object may stand in the place of compositions among the items.

The root is the one node that is retyped, and it is retyped before the descent. So the
result is compared with the retyped schema, and this one with the schema. -/
theorem prepare?_loosens (hp : p.expandsItems = false) (c : Components) (s : Schema) :
    ∃ s', p.prepare? c s = some s' ∧ p.prepare? c s' = some s'
      ∧ (p.keepsEmpty = false → s'.shape ≠ .empty)
      ∧ (p.loosensComposedItems = true → ∀ u, s'.Reaches u → u.shape ≠ .arrayOfComposed)
      ∧ ∃ r, (r = s ∨ p.keepsEmpty = false ∧ s.shape = .empty ∧ r = s.setType "string")
        ∧ p.Loosens r s' := by
  have hheight : (p.root s).height ≤ depthFor c s := by
    rw [root_height, depthFor]
    omega
  obtain ⟨s', h⟩ := exists_nodesWithin?_of_height_le (c := c) hp hheight
  have hheight' : s'.height ≤ depthFor c s' := by
    unfold depthFor
    omega
  refine ⟨s', h, ?_, fun hk => shape_ne_empty_of_nodesWithin? hk h,
    fun hl u hu => shape_ne_arrayOfComposed_of_reaches hp hl h hu,
    p.root s, p.root_eq s, nodesWithin?_loosens hp h⟩
  show p.nodesWithin? c (depthFor c s') (p.root s') = some s'
  rw [root_of_nodesWithin? h]
  exact nodesWithin?_self hp h hheight'

/-- An object with an array of a composition for its one property. -/
def mixture : Schema where
  properties := [("values", .inline { Schema.ofType "array" with
    items := some (.inline { oneOf := [.inline (.ofType "string")] }) })]

/-- The composition among the items of the property gives way, and all else stays. -/
theorem prepare?_loosens_of_mixture :
    (∃ u, mixture.Reaches u ∧ u.shape = .arrayOfComposed)
      ∧ ∃ s', prepare? ⟨false, true, false⟩ {} mixture = some s'
        ∧ prepare? ⟨false, true, false⟩ {} s' = some s' ∧ s'.shape ≠ .empty
        ∧ (∀ u, s'.Reaches u → u.shape ≠ .arrayOfComposed)
        ∧ ∃ r, (r = mixture ∨ mixture.shape = .empty ∧ r = mixture.setType "string")
          ∧ Loosens ⟨false, true, false⟩ r s' := by
  have hreached : ∃ u, mixture.Reaches u ∧ u.shape = .arrayOfComposed := by
    refine ⟨_, .single (.property List.mem_cons_self), ?_⟩
    decide
  obtain ⟨s', h, h', hempty, hcomposed, r, hr, hloosens⟩ :=
    prepare?_loosens (p := ⟨false, true, false⟩) rfl {} mixture
  exact ⟨hreached, s', h, h', hempty rfl, hcomposed rfl, r, hr.imp id And.right, hloosens⟩

end Preparation

end ClientGen
