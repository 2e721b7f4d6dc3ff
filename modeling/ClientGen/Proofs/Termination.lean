import ClientGen.Proofs.Occurrences

/-!
# The preparation ends where item references do not go in a circle

`Components.LeadsTo` is what a reader of the document sees: somewhere below one schema, the
items of an array are a reference to the other. A schema is `Components.Endless` if that
leads it to a container that leads back to itself.

The descent of the preparation cannot run in a circle in any other way
(`Preparation.RunsOn.endless`): the nodes that it goes through get lower except where a
reference is followed. So a schema that is not endless is prepared, at the depth that the
preparation starts with (`Preparation.exists_prepareWithin?`), and where item references
are acyclic (`Components.ItemsAcyclic`) that is so for every schema
(`Preparation.exists_prepare?`).

The converse depends on what is loosened. Where compositions are left alone, the descent
follows every reference that leads on, and an endless schema does run on
(`Preparation.runsOn_of_endless`). Where they are loosened, the untyped object may stand
where the circle would have been closed.
-/

namespace ClientGen

open Relation (ReflTransGen TransGen)
open Schema

namespace Components

/-- **A schema leads to a container**: the items of an array below it are a reference
to the container. -/
def LeadsTo (c : Components) (s t : Schema) : Prop :=
  ∃ u path, s.Reaches u ∧ u.isArray = true ∧ u.items = some (.ref path)
    ∧ c.containerAt? path = some t

/-- **Item references are acyclic**: no schema leads back to itself, be it through
any number of containers. -/
def ItemsAcyclic (c : Components) : Prop := ∀ s, ¬ TransGen c.LeadsTo s s

/-- **A schema is endless**: it leads to a container that leads back to itself. -/
def Endless (c : Components) (s : Schema) : Prop :=
  ∃ t, TransGen c.LeadsTo s t ∧ TransGen c.LeadsTo t t

variable {c : Components} {s s' t u : Schema}

/-- Item references are acyclic if what they lead to leads nowhere. -/
theorem itemsAcyclic_of_ends (h : ∀ s t u, c.LeadsTo s t → ¬ c.LeadsTo t u) :
    c.ItemsAcyclic := by
  intro s hs
  obtain ⟨t, hst, -⟩ := TransGen.head'_iff.mp hs
  obtain ⟨r, -, hrs⟩ := TransGen.tail'_iff.mp hs
  exact h r s t hrs hst

/-- No schema is endless where item references are acyclic. -/
theorem ItemsAcyclic.not_endless (hc : c.ItemsAcyclic) (s : Schema) : ¬ c.Endless s := by
  rintro ⟨t, -, ht⟩
  exact hc t ht

/-- A schema leads where anything below it leads. -/
theorem LeadsTo.of_reaches (hu : s.Reaches u) (h : c.LeadsTo u t) : c.LeadsTo s t := by
  obtain ⟨v, path, hv, hrest⟩ := h
  exact ⟨v, path, hu.trans hv, hrest⟩

/-- What a schema reaches leads nowhere else than the schema. -/
theorem transGen_of_reaches (hu : s.Reaches u) (h : TransGen c.LeadsTo u t) :
    TransGen c.LeadsTo s t := by
  obtain ⟨v, hv, hrest⟩ := TransGen.head'_iff.mp h
  exact TransGen.head'_iff.mpr ⟨v, .of_reaches hu hv, hrest⟩

/-- A schema is endless if something below it is. -/
theorem Endless.of_reaches (hu : s.Reaches u) (h : c.Endless u) : c.Endless s := by
  obtain ⟨t, hut, ht⟩ := h
  exact ⟨t, transGen_of_reaches hu hut, ht⟩

/-- A schema is endless if it leads to an endless one. -/
theorem Endless.of_transGen (hst : TransGen c.LeadsTo s t) (h : c.Endless t) :
    c.Endless s := by
  obtain ⟨u, htu, hu⟩ := h
  exact ⟨u, hst.trans htu, hu⟩

/-- What a schema leads to is one of the schemas of the table. -/
theorem mem_inlineSchemas_of_leadsTo (h : TransGen c.LeadsTo s t) : t ∈ c.inlineSchemas := by
  obtain ⟨v, -, u, path, -, -, -, ht⟩ := TransGen.tail'_iff.mp h
  exact mem_inlineSchemas_of_containerAt? ht

end Components

namespace Preparation

variable {p : Preparation} {c : Components} {a b : Occurrence} {s s' t u : Schema}
  {isExpanded : Bool}

/-! ## Circles of the descent and circles of references

One direction needs a measure: as long as the descent follows no reference it goes down in
the document, and there it cannot come back. The other needs that nothing gives way to the
untyped object. -/

/-- **The descent goes down, or follows a reference** and goes down from there. By induction
on the steps: one to something held keeps whichever of the two it was, and gets lower; one
along a reference is a reference of everything that reaches the array. -/
theorem reaches_or_leadsTo (h : TransGen (p.Descends c) a b) :
    a.schema.Reaches b.schema ∧ b.schema.height < a.schema.height
      ∨ ∃ t, TransGen c.LeadsTo a.schema t ∧ t.Reaches b.schema := by
  induction h with
  | single hab =>
    rcases hab.holds_or_refersTo with hheld | ⟨path, href, -⟩
    · exact Or.inl ⟨.single hheld, hheld.height_lt⟩
    · exact Or.inr ⟨_, .single ⟨_, path, .refl, href.isArray, href.items, href.container⟩, .refl⟩
  | @tail b d _ hbd ih =>
    rcases hbd.holds_or_refersTo with hheld | ⟨path, href, -⟩
    · rcases ih with ⟨hab, hlt⟩ | ⟨t, hat, htb⟩
      · exact Or.inl ⟨hab.tail hheld, Nat.lt_trans hheld.height_lt hlt⟩
      · exact Or.inr ⟨t, hat, htb.tail hheld⟩
    · have hleads : ∀ r, r.Reaches b.schema → c.LeadsTo r d.schema :=
        fun r hr => ⟨_, path, hr, href.isArray, href.items, href.container⟩
      rcases ih with ⟨hab, -⟩ | ⟨t, hat, htb⟩
      · exact Or.inr ⟨_, .single (hleads _ hab), .refl⟩
      · exact Or.inr ⟨_, hat.tail (hleads t htb), .refl⟩

/-- **The descent runs on only below endless schemas.** It comes back to where it has been,
and cannot do so by going down; so it has followed a reference on the way, and will follow
it again. -/
theorem RunsOn.endless (h : p.RunsOn c a) : c.Endless a.schema := by
  obtain ⟨b, hab, hbb⟩ := h
  have hb : c.Endless b.schema := by
    rcases reaches_or_leadsTo hbb with ⟨-, hlt⟩ | ⟨t, hbt, htb⟩
    · exact absurd hlt (Nat.lt_irrefl _)
    · exact ⟨t, hbt, Components.transGen_of_reaches htb hbt⟩
  rcases Relation.reflTransGen_iff_eq_or_transGen.mp hab with rfl | hab
  · exact hb
  · rcases reaches_or_leadsTo hab with ⟨hreaches, -⟩ | ⟨t, hat, htb⟩
    · exact hb.of_reaches hreaches
    · exact (hb.of_reaches htb).of_transGen hat

/-- Where nothing is loosened the descent goes everywhere below a schema. -/
theorem exists_reflTransGen_of_reaches (hl : p.loosensComposedItems = false)
    (h : s.Reaches u) :
    ∃ expanded, ReflTransGen (p.Descends c) ⟨s, isExpanded⟩ ⟨u, expanded⟩ := by
  induction h with
  | refl => exact ⟨isExpanded, .refl⟩
  | @tail v w _ hvw ih =>
    obtain ⟨expanded, hv⟩ := ih
    cases hvw with
    | property h => exact ⟨false, hv.tail (.property h)⟩
    | items h =>
      cases ha : v.isArray with
      | false => exact ⟨false, hv.tail (.looseItems ha h)⟩
      | true =>
        exact ⟨true, hv.tail (.items ha h (fun h => absurd (hl.symm.trans h)
          Bool.false_ne_true))⟩

/-- Where nothing is loosened the descent follows every reference to a container. Between
two references it goes down to the array that has the next one. -/
theorem transGen_of_leadsTo (hl : p.loosensComposedItems = false)
    (h : TransGen c.LeadsTo s t) :
    TransGen (p.Descends c) ⟨s, isExpanded⟩ ⟨t, true⟩ := by
  have hstep : ∀ s t isExpanded, c.LeadsTo s t →
      TransGen (p.Descends c) ⟨s, isExpanded⟩ ⟨t, true⟩ := by
    rintro s t isExpanded ⟨u, path, hu, ha, hi, ht⟩
    obtain ⟨expanded, hdown⟩ := exists_reflTransGen_of_reaches hl hu
    exact TransGen.tail'_iff.mpr ⟨_, hdown, .target ⟨ha, hi, ht⟩
      (fun h => absurd (hl.symm.trans h) Bool.false_ne_true)⟩
  induction h with
  | single hst => exact hstep _ _ _ hst
  | tail _ htu ih => exact ih.trans (hstep _ _ _ htu)

/-- **Below an endless schema the descent runs on**, where compositions are left alone. -/
theorem runsOn_of_endless (hl : p.loosensComposedItems = false) (h : c.Endless s) :
    p.RunsOn c ⟨s, isExpanded⟩ := by
  obtain ⟨t, hst, htt⟩ := h
  exact ⟨⟨t, true⟩, (transGen_of_leadsTo hl hst).to_reflTransGen, transGen_of_leadsTo hl htt⟩

/-! ## The root

The preparation retypes an empty root before the descent, where empty classes are not kept.
It makes no difference to where the descent goes, since an empty schema holds nothing. -/

/-- The root of a schema as the descent meets it. -/
def root (p : Preparation) (s : Schema) : Schema := step (!p.keepsEmpty) retypeEmpty? s

/-- The root holds what the schema holds, and is an array if the schema is one: a schema
that is retyped was no array, and is none with the type of a text. -/
theorem root_parts (p : Preparation) (s : Schema) :
    (p.root s).properties = s.properties ∧ (p.root s).items = s.items
      ∧ (p.root s).isArray = s.isArray := by
  refine step_induction (P := fun s' => s'.properties = s.properties ∧ s'.items = s.items
    ∧ s'.isArray = s.isArray) ⟨rfl, rfl, rfl⟩ (fun s' h => ?_)
  unfold retypeEmpty? at h
  split_ifs at h with hshape
  cases h
  refine ⟨rfl, rfl, ?_⟩
  unfold shape at hshape
  split_ifs at hshape with ha
  exact (Bool.eq_false_iff.mpr ha).symm

/-- Retyping changes no height. -/
theorem root_height (p : Preparation) (s : Schema) : (p.root s).height = s.height := by
  obtain ⟨hps, hitems, -⟩ := p.root_parts s
  rw [height_eq, height_eq, hps, hitems]

/-- The descent from the root is that from the schema. -/
theorem runsOn_root_iff (p : Preparation) (s : Schema) :
    p.RunsOn c ⟨p.root s, isExpanded⟩ ↔ p.RunsOn c ⟨s, isExpanded⟩ := by
  obtain ⟨hps, hitems, ha⟩ := p.root_parts s
  exact ⟨.congr hps.symm hitems.symm ha.symm, .congr hps hitems ha⟩

/-! ## A depth that suffices

Two descents have to end. Without the expansion the descent goes down in the schema and is
over by its height. With it, it goes on into the schemas of the table, and as long as it
meets none of them twice it is over by the depth that the preparation starts with. -/

/-- A step that is not taken changes nothing. -/
theorem step_of_not_taken (change? : Schema → Option Schema) (s : Schema) :
    step false change? s = s := rfl

/-- Without the expansion a node is loosened or stays as it is. -/
theorem node_eq (hp : p.expandsItems = false) (s : Schema) :
    (p.loosensComposedItems = true ∧ s.shape = .arrayOfComposed
        ∧ p.node c s = { s with items := some (.inline untypedObject) })
      ∨ ¬ (p.loosensComposedItems = true ∧ s.shape = .arrayOfComposed) ∧ p.node c s = s := by
  by_cases h : p.loosensComposedItems = true ∧ s.shape = .arrayOfComposed
  · exact Or.inl ⟨h.1, h.2, node_of_arrayOfComposed h.1 h.2⟩
  · refine Or.inr ⟨h, ?_⟩
    rw [node_of_not_arrayOfComposed h, hp, step_of_not_taken]

/-- Without the expansion every depth from the height on suffices: loosening puts the
untyped object in the place of something that is at least as high. -/
theorem exists_nodesWithin?_of_height_le (hp : p.expandsItems = false) {depth : Nat}
    (hdepth : s.height ≤ depth) : ∃ s', p.nodesWithin? c depth s = some s' := by
  induction depth generalizing s with
  | zero => exact absurd hdepth (Nat.not_le_of_gt s.height_pos)
  | succ depth ih =>
    refine exists_nodesWithin?_succ (fun u hu => ?_)
    obtain ⟨-, hshape, hnode⟩ | ⟨-, hnode⟩ := node_eq (c := c) hp s
    · rw [hnode] at hu
      cases hu with
      | property hmem =>
        have hlt := Holds.height_lt (.property hmem : s.Holds u)
        exact ih (by omega)
      | items hit =>
        -- There is a level left for the untyped object: what it replaces had one.
        cases hit
        obtain ⟨-, v, hv, -⟩ := shape_eq_arrayOfComposed_iff.mp hshape
        have hlt := Holds.height_lt (.items hv : s.Holds v)
        have hpos := v.height_pos
        obtain ⟨depth, rfl⟩ := Nat.exists_eq_succ_of_ne_zero (n := depth) (by omega)
        exact exists_nodesWithin?_untypedObject depth
    · rw [hnode] at hu
      have hlt := hu.height_lt
      exact ih (by omega)

/-- **Where the descent does not run on the schema is prepared**, at the depth that the
preparation starts with and at any greater one. -/
theorem exists_prepareWithin?_of_not_runsOn (hp : p.expandsItems = true)
    (hrun : ¬ p.RunsOn c ⟨s, false⟩) {depth : Nat} (hdepth : depthFor c s ≤ depth) :
    ∃ s', p.prepareWithin? c depth s = some s' := by
  refine exists_nodesWithin? hp (fun h => hrun ((p.runsOn_root_iff s).mp h)) c.inlineSchemas
    (fun t ht _ => ht) ?_ (.self c (p.root s))
  show (p.root s).height + _ < _
  rw [root_height, Components.sum_height_inlineSchemas]
  exact hdepth

/-- **A schema that is not endless is prepared**, at the depth that the preparation starts
with and at any greater one. Whether compositions are loosened does not matter for that. -/
theorem exists_prepareWithin? (hs : ¬ c.Endless s) (p : Preparation) {depth : Nat}
    (hdepth : depthFor c s ≤ depth) : ∃ s', p.prepareWithin? c depth s = some s' := by
  cases hp : p.expandsItems with
  | true => exact exists_prepareWithin?_of_not_runsOn hp (fun h => hs h.endless) hdepth
  | false =>
    refine exists_nodesWithin?_of_height_le hp ?_
    show (p.root s).height ≤ depth
    rw [root_height]
    unfold depthFor at hdepth
    omega

/-- **Where item references are acyclic every schema is prepared.** -/
theorem exists_prepare? (hc : c.ItemsAcyclic) (p : Preparation) (s : Schema) :
    ∃ s', p.prepare? c s = some s' :=
  exists_prepareWithin? (hc.not_endless s) p (Nat.le_refl _)

end Preparation

end ClientGen
