import ClientGen.Proofs.Termination

/-!
# Preparing a schema a second time

Each step of the preparation is idempotent where it stands, but the steps come in a
fixed order: items that are a composition are loosened before item references are
expanded. A container that the expansion puts in place may itself be a composition.
The first preparation leaves it – its node is past the loosening –, and a second one
would loosen it.

That is the only thing a second preparation can find to do. The nodes of a result
are settled, so nothing is left to expand, and a result changes exactly if one of its
nodes is an array of a composition (`Preparation.nodesWithin?_self_iff`). Such a node
comes from a node at which a reference to a composed container was expanded
(`Preparation.exists_arrayOfComposed_iff`), so whether a second preparation changes
anything can be read off the first (`Preparation.prepare?_twice`). A third never
does (`Preparation.prepare?_thrice`).
-/

namespace ClientGen

open Schema

/-- **The items are a reference to a container that is a composition as well.** -/
def Components.HasComposedTarget (c : Components) (s : Schema) : Prop :=
  s.isArray = true ∧ ∃ path t, s.items = some (.ref path) ∧ c.containerAt? path = some t
    ∧ t.isComposed = true

namespace Preparation

variable {p : Preparation} {c : Components} {s s' : Schema}

/-- **A preparation visits a node**: it is met on the way down, the containers that
were put in place on that way included. -/
def Visits (p : Preparation) (c : Components) : Schema → Schema → Prop :=
  Relation.ReflTransGen (fun s u => (p.node c s).Holds u)

/-! ## When the result stays as it is

A preparation that changes nothing is one that finds nothing to do at any node: nothing to
loosen and nothing to expand. Of a settled schema only the first has to be asked. -/

/-- **A settled schema is prepared to itself exactly if none of its nodes is loosened.** By
induction on the depth. If a node is loosened the result differs there; if not, each node
stays as it is and so do all parts. -/
theorem nodesWithin?_self_iff {depth : Nat} (hs : ∀ u, s.Reaches u → c.Settled u)
    (hdepth : s.height ≤ depth) :
    p.nodesWithin? c depth s = some s
      ↔ ∀ u, s.Reaches u → ¬ (p.loosensComposedItems = true ∧ u.shape = .arrayOfComposed) := by
  induction depth generalizing s with
  | zero =>
    have := s.height_pos
    omega
  | succ depth ih =>
    have hheld : ∀ u, s.Holds u → (p.nodesWithin? c depth u = some u
        ↔ ∀ v, u.Reaches v →
            ¬ (p.loosensComposedItems = true ∧ v.shape = .arrayOfComposed)) := by
      intro u hu
      have hlt := hu.height_lt
      exact ih (fun v hv => hs v (.head hu hv)) (by omega)
    rw [nodesWithin?_succ_eq_some]
    by_cases hl : p.loosensComposedItems = true ∧ s.shape = .arrayOfComposed
    · -- The loosened items are no composition, so the node has changed.
      refine ⟨fun h => ?_, fun h => absurd hl (h s .refl)⟩
      rw [node_of_arrayOfComposed hl.1 hl.2] at h
      obtain ⟨-, u, hu, hcomposed⟩ := shape_eq_arrayOfComposed_iff.mp hl.2
      obtain ⟨v, hv, hvu⟩ := h.exists_items hu
      cases hv
      rw [(nodesWithin?_sameFrame hvu).isComposed] at hcomposed
      cases hcomposed
    · rw [node_eq_self hl (Components.expandItems?_eq_none hs)]
      constructor
      · intro h u hu
        rcases Relation.ReflTransGen.cases_head hu with rfl | ⟨v, hv, hu⟩
        · exact hl
        · exact (hheld v hv).mp (h.self_of_holds hv) u hu
      · intro h
        exact PartsRel.of_forall_self (fun u hu =>
          (hheld u hu).mpr (fun v hv => h v (.head hu hv)))

/-! ## Where an array of a composition comes from

Where compositions are loosened, an array of one cannot be left by a node that was one
before: it has given way to the untyped object. It must have been made by the expansion, at
this node and from a reference to a container that is a composition as well. -/

/-- A node is an array of a composition after the descent exactly if it was one
before. -/
theorem shape_eq_arrayOfComposed_of_partsRel {r : Schema → Schema → Prop}
    (hr : ∀ u u', r u u' → u.SameFrame u') (h : PartsRel r s s') :
    s'.shape = .arrayOfComposed ↔ s.shape = .arrayOfComposed := by
  rw [shape_eq_arrayOfComposed_iff, shape_eq_arrayOfComposed_iff, h.sameFrame.isArray]
  refine and_congr_right (fun _ => ?_)
  constructor
  · rintro ⟨u', hu', hcomposed⟩
    obtain ⟨u, hu, huu⟩ := h.exists_items hu'
    exact ⟨u, hu, (hr u u' huu).isComposed ▸ hcomposed⟩
  · rintro ⟨u, hu, hcomposed⟩
    obtain ⟨u', hu', huu⟩ := h.exists_items_left hu
    exact ⟨u', hu', (hr u u' huu).isComposed.trans hcomposed⟩

/-- **The steps leave an array of a composition exactly where they expand a reference to a
composed container.** What is put in place is expanded itself, but that changes its items
only, not that it is a composition. -/
theorem node_shape_eq_arrayOfComposed_iff (hp : p.expandsItems = true)
    (hl : p.loosensComposedItems = true) :
    (p.node c s).shape = .arrayOfComposed ↔ c.HasComposedTarget s := by
  by_cases hshape : s.shape = .arrayOfComposed
  · rw [node_of_arrayOfComposed hl hshape]
    obtain ⟨-, u, hu, -⟩ := shape_eq_arrayOfComposed_iff.mp hshape
    constructor
    · intro h
      obtain ⟨-, v, hv, hcomposed⟩ := shape_eq_arrayOfComposed_iff.mp h
      cases hv
      cases hcomposed
    · rintro ⟨-, path, t, hi, -⟩
      rw [hu] at hi
      cases hi
  · rw [node_of_not_arrayOfComposed (fun h => hshape h.2), step, if_pos hp]
    have hsettled := Components.settled_of_expandItems? (c := c) (s := s)
    cases hexp : c.expandItems? s with
    | none =>
      rw [hexp] at hsettled
      refine ⟨fun h => absurd h hshape, ?_⟩
      rintro ⟨ha, path, t, hi, ht, -⟩
      have hnone := hsettled ha path hi
      rw [ht] at hnone
      cases hnone
    | some s' =>
      rw [Option.getD_some, shape_eq_arrayOfComposed_iff,
        (Components.expandItems?_expands hexp).sameFrame.isArray]
      refine and_congr_right (fun ha => ?_)
      obtain ⟨u', rfl, ⟨path, t, hi, ht, htu⟩ | ⟨u, hi, huu⟩⟩ :=
        Components.exists_of_expandItems? hexp
      · -- The reference was expanded: the container is a composition if what stands for it is.
        constructor
        · rintro ⟨v, hv, hcomposed⟩
          cases hv
          exact ⟨path, t, hi, ht, htu.sameFrame.isComposed ▸ hcomposed⟩
        · rintro ⟨path', t', hi', ht', hcomposed⟩
          rw [hi] at hi'
          cases hi'
          rw [ht] at ht'
          cases ht'
          exact ⟨u', rfl, htu.sameFrame.isComposed.trans hcomposed⟩
      · -- Inline items are no composition here, and do not become one.
        constructor
        · rintro ⟨v, hv, hcomposed⟩
          cases hv
          rw [huu.sameFrame.isComposed] at hcomposed
          exact absurd (shape_eq_arrayOfComposed_iff.mpr ⟨ha, u, hi, hcomposed⟩) hshape
        · rintro ⟨path, t, hi', -⟩
          rw [hi] at hi'
          cases hi'

/-- **The result has an array of a composition exactly if the preparation expanded a
reference to a composed container somewhere.** The nodes of the result and the nodes that
are visited correspond to each other on the way down. -/
theorem exists_arrayOfComposed_iff (hp : p.expandsItems = true)
    (hl : p.loosensComposedItems = true) {depth : Nat}
    (h : p.nodesWithin? c depth s = some s') :
    (∃ u, s'.Reaches u ∧ u.shape = .arrayOfComposed)
      ↔ ∃ u, p.Visits c s u ∧ c.HasComposedTarget u := by
  induction depth generalizing s s' with
  | zero => cases h
  | succ depth ih =>
    have hparts := nodesWithin?_succ_eq_some.mp h
    have hroot : s'.shape = .arrayOfComposed ↔ c.HasComposedTarget s :=
      (shape_eq_arrayOfComposed_of_partsRel (fun _ _ => nodesWithin?_sameFrame) hparts).trans
        (node_shape_eq_arrayOfComposed_iff hp hl)
    constructor
    · rintro ⟨u, hu, hshape⟩
      rcases Relation.ReflTransGen.cases_head hu with rfl | ⟨v', hv', hu⟩
      · exact ⟨s, .refl, hroot.mp hshape⟩
      · obtain ⟨v, hv, hvv⟩ := hparts.exists_of_holds hv'
        obtain ⟨w, hw, htarget⟩ := (ih hvv).mp ⟨u, hu, hshape⟩
        exact ⟨w, .head hv hw, htarget⟩
    · rintro ⟨u, hu, htarget⟩
      rcases Relation.ReflTransGen.cases_head hu with rfl | ⟨v, hv, hu⟩
      · exact ⟨s', .refl, hroot.mpr htarget⟩
      · obtain ⟨v', hv', hvv⟩ := hparts.exists_of_holds_left hv
        obtain ⟨w, hw, hshape⟩ := (ih hvv).mpr ⟨u, hu, htarget⟩
        exact ⟨w, .head hv' hw, hshape⟩

/-- Of a settled schema only settled nodes are visited. -/
theorem settled_of_visits {u : Schema} (hs : ∀ v, s.Reaches v → c.Settled v)
    (h : p.Visits c s u) : c.Settled u := by
  have hnode : ∀ s u, (∀ v, s.Reaches v → c.Settled v) → (p.node c s).Holds u →
      ∀ v, u.Reaches v → c.Settled v := by
    intro s u hs hu v hv
    by_cases hl : p.loosensComposedItems = true ∧ s.shape = .arrayOfComposed
    · rw [node_of_arrayOfComposed hl.1 hl.2] at hu
      cases hu with
      | property hmem => exact hs v (.head (.property hmem) hv)
      | items hi =>
        -- The untyped object is no array and holds nothing.
        cases hi
        rcases Relation.ReflTransGen.cases_head hv with rfl | ⟨w, hw, -⟩
        · exact fun ha => nomatch ha
        · exact absurd hw ((SameFrame.refl _).not_holds rfl rfl)
    · rw [node_eq_self hl (Components.expandItems?_eq_none hs)] at hu
      exact hs v (.head hu hv)
  induction h using Relation.ReflTransGen.head_induction_on with
  | refl => exact hs u .refl
  | head hu _ ih => exact ih (hnode _ _ hs hu)

/-! ## The whole preparation

Around the descent there is the step at the root, which has nothing to do a second time. So
what was said of the descent holds of the preparation. -/

/-- A schema that was given a type is not one that says nothing. -/
theorem shape_setType_ne_empty {name : String} (hname : name ≠ "") :
    (s.setType name).shape ≠ .empty := by
  have huntyped : (s.setType name).isUntyped = false := by
    show (some name).all String.isEmpty = false
    simpa using hname
  unfold shape
  rw [huntyped, Bool.false_and, if_neg Bool.false_ne_true]
  split_ifs <;> simp

/-- **A result says something**, unless schemas that say nothing are kept: the root did
when the descent began, and the result looks the same. -/
theorem shape_ne_empty_of_nodesWithin? (hk : p.keepsEmpty = false) {depth : Nat}
    (h : p.nodesWithin? c depth (p.root s) = some s') : s'.shape ≠ .empty := by
  have hroot : (p.root s).shape ≠ .empty := by
    unfold root step retypeEmpty?
    rw [hk]
    simp only [Bool.not_false, if_true]
    split_ifs with hempty
    · exact shape_setType_ne_empty (by decide)
    · exact hempty
  exact fun hempty => hroot ((nodesWithin?_sameFrame h).shape_eq_empty_iff.mp hempty)

/-- **A result is not retyped again.** -/
theorem root_of_nodesWithin? {depth : Nat} (h : p.nodesWithin? c depth (p.root s) = some s') :
    p.root s' = s' := by
  cases hk : p.keepsEmpty with
  | true =>
    unfold root
    rw [hk]
    rfl
  | false =>
    unfold root step retypeEmpty?
    rw [if_neg (shape_ne_empty_of_nodesWithin? hk h)]
    exact ite_self s'

/-- **A second preparation changes nothing exactly if the first expanded no reference
to a composed container** – or does not loosen compositions at all. -/
theorem prepare?_self_iff (hp : p.expandsItems = true) (h : p.prepare? c s = some s') :
    p.prepare? c s' = some s'
      ↔ ¬ (p.loosensComposedItems = true
          ∧ ∃ u, p.Visits c (p.root s) u ∧ c.HasComposedTarget u) := by
  have hnodes : p.nodesWithin? c (depthFor c s) (p.root s) = some s' := h
  have hdepth : s'.height ≤ depthFor c s' := by
    unfold depthFor
    omega
  show p.nodesWithin? c (depthFor c s') (p.root s') = some s' ↔ _
  rw [root_of_nodesWithin? hnodes,
    nodesWithin?_self_iff (settled_of_reaches hp hnodes) hdepth]
  constructor
  · rintro hnot ⟨hl, hex⟩
    obtain ⟨u, hu, hshape⟩ := (exists_arrayOfComposed_iff hp hl hnodes).mpr hex
    exact hnot u hu ⟨hl, hshape⟩
  · rintro hnot u hu ⟨hl, hshape⟩
    exact hnot ⟨hl, (exists_arrayOfComposed_iff hp hl hnodes).mp ⟨u, hu, hshape⟩⟩

/-- **A preparation, taken twice**: where item references are acyclic both times have
a result, and the second changes nothing exactly if the first expanded no reference to
a composed container, or compositions are not loosened at all.

The condition is read off the first preparation, by the nodes that it visits, and not off
its result. That the two have results is where acyclic references are needed. -/
theorem prepare?_twice (hp : p.expandsItems = true) (hc : c.ItemsAcyclic) (s : Schema) :
    ∃ s' s'', p.prepare? c s = some s' ∧ p.prepare? c s' = some s''
      ∧ (s'' = s'
        ↔ ¬ (p.loosensComposedItems = true
            ∧ ∃ u, p.Visits c (p.root s) u ∧ c.HasComposedTarget u)) := by
  obtain ⟨s', h⟩ := exists_prepare? hc p s
  obtain ⟨s'', h'⟩ := exists_prepare? hc p s'
  refine ⟨s', s'', h, h', ?_⟩
  rw [← prepare?_self_iff hp h, h', Option.some.injEq]

/-- **Two preparations always suffice**: a third changes nothing. The containers that
the first put in place are there for the second, which expands no reference any
more. -/
theorem prepare?_thrice {s'' : Schema} (hp : p.expandsItems = true)
    (h : p.prepare? c s = some s') (h' : p.prepare? c s' = some s'') :
    p.prepare? c s'' = some s'' := by
  have hnodes : p.nodesWithin? c (depthFor c s) (p.root s) = some s' := h
  rw [prepare?_self_iff hp h', root_of_nodesWithin? hnodes]
  rintro ⟨-, u, hu, ha, path, t, hi, ht, -⟩
  have hnone := settled_of_visits (settled_of_reaches hp hnodes) hu ha path hi
  rw [ht] at hnone
  cases hnone

/-- Components with one container, called `Labels`. -/
def labelComponents (labels : Schema) : Components where
  schemas := .ofEntries [("Labels", .inline labels)]

/-- The one container is all that a reference can lead to. -/
theorem eq_of_containerAt?_labelComponents {labels t : Schema} {path : String}
    (h : (labelComponents labels).containerAt? path = some t) : t = labels := by
  have hmem : t ∈ [labels] := Components.mem_inlineSchemas_of_containerAt? h
  exact List.mem_singleton.mp hmem

/-- A map without properties leads nowhere, so it closes no circle. -/
theorem itemsAcyclic_labelComponents {labels : Schema} (ha : labels.isArray = false)
    (hps : labels.properties = []) (hitems : labels.items = none) :
    (labelComponents labels).ItemsAcyclic := by
  refine Components.itemsAcyclic_of_ends (fun s t u hst htu => ?_)
  obtain ⟨-, path, -, -, -, ht⟩ := hst
  obtain rfl := eq_of_containerAt?_labelComponents ht
  obtain ⟨v, -, hv, hva, -⟩ := htu
  rcases Relation.ReflTransGen.cases_head hv with rfl | ⟨w, hw, -⟩
  · rw [ha] at hva
    cases hva
  · exact (SameFrame.refl _).not_holds hps hitems hw

/-- A map of anything. -/
def plainLabels : Schema := { Schema.ofType "object" with additional := some (.allowed true) }

/-- A map of anything that is a composition as well. -/
def composedLabels : Schema := { plainLabels with allOf := [.inline (.ofType "object")] }

/-- An array of the container. -/
def labelSets : Schema :=
  { Schema.ofType "array" with items := some (.ref "#/components/schemas/Labels") }

/-- A container that is no composition is put in place and stays. -/
theorem prepare?_twice_of_plainLabels :
    ∃ s' s'', prepare? ⟨false, true, true⟩ (labelComponents plainLabels) labelSets = some s'
      ∧ prepare? ⟨false, true, true⟩ (labelComponents plainLabels) s' = some s'' ∧ s'' = s' := by
  have hc : (labelComponents plainLabels).ItemsAcyclic :=
    itemsAcyclic_labelComponents (by decide) rfl rfl
  obtain ⟨s', s'', h, h', hiff⟩ := prepare?_twice (p := ⟨false, true, true⟩) rfl hc labelSets
  refine ⟨s', s'', h, h', hiff.mpr ?_⟩
  rintro ⟨-, u, -, -, path, t, -, ht, hcomposed⟩
  obtain rfl := eq_of_containerAt?_labelComponents ht
  cases hcomposed

/-- **A map that is a composition is put in place once and loosened the second time**: only
then it stands among the items where the loosening looks for it. -/
theorem prepare?_not_idempotent_of_composedLabels :
    (labelComponents composedLabels).ItemsAcyclic
      ∧ ∃ s' s'',
          prepare? ⟨false, true, true⟩ (labelComponents composedLabels) labelSets = some s'
          ∧ prepare? ⟨false, true, true⟩ (labelComponents composedLabels) s' = some s''
          ∧ s'' ≠ s' := by
  refine ⟨itemsAcyclic_labelComponents (by decide) rfl rfl, ?_⟩
  have honce : (prepare? ⟨false, true, true⟩ (labelComponents composedLabels) labelSets).map
      hasComposedItems = some true := by
    decide +kernel
  have htwice : ((prepare? ⟨false, true, true⟩ (labelComponents composedLabels) labelSets).bind
      (prepare? ⟨false, true, true⟩ (labelComponents composedLabels))).map
      hasComposedItems = some false := by
    decide +kernel
  obtain ⟨s', h, hs'⟩ := Option.map_eq_some_iff.mp honce
  rw [h] at htwice
  obtain ⟨s'', h', hs''⟩ := Option.map_eq_some_iff.mp htwice
  refine ⟨s', s'', h, h', ?_⟩
  rintro rfl
  rw [hs'] at hs''
  cases hs''

end Preparation

end ClientGen
