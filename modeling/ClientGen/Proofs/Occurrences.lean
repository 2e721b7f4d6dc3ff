import ClientGen.Proofs.Preparation
import ClientGen.Proofs.Reference
import Mathlib.Algebra.BigOperators.Group.List.Basic
import Mathlib.Algebra.GroupWithZero.Nat
import Mathlib.Logic.Relation

/-!
# Where the descent of the preparation goes

The descent goes on into what its steps have just put in place. A node that it meets is
therefore not a node of the document but what the steps above have made of one, and the
same schema of the document may be met in many forms: with more or fewer of its references
followed.

For the question whether the descent ends, these forms can be forgotten. What decides is
which schema of the document a node came from, and whether the expansion of an array has
already gone through it (`Occurrence`). A node that an expansion has gone through has no
reference to a container left, so where compositions among the items are loosened, one
that has come in the place of a reference is met there and gives way. Where nothing has gone
through it yet, the reference is put in place only after that test, and passes it.

`Preparation.Descends` is the descent on occurrences. It is a finite graph, although the
descent need not be finite, and it follows the real one in both directions
(`Preparation.exists_descends`, `Preparation.exists_holds_node`). So the descent ends
exactly if it does not run in a circle there (`Preparation.RunsOn`):

* what leads into a circle has no preparation at any depth
  (`Preparation.nodesWithin?_eq_none`), because each level finds the next occurrence;
* anything else is prepared, and the containers bound the depth
  (`Preparation.exists_nodesWithin?`), because none is entered twice on a way down.
-/

namespace ClientGen

open Relation (ReflTransGen TransGen)
open Schema

namespace Components

/-- **An array refers to a container**: its items are a reference that leads there. -/
structure RefersTo (c : Components) (s : Schema) (path : String) (t : Schema) : Prop where
  isArray : s.isArray = true
  items : s.items = some (.ref path)
  container : c.containerAt? path = some t

variable {c : Components} {s s' t u v : Schema} {path : String}

/-- The schemas that are defined inline. -/
def inlineSchemas (c : Components) : List Schema := c.schemas.values.filterMap RefOr.inline?

/-- A container that a reference leads to is one of the schemas. -/
theorem mem_inlineSchemas_of_containerAt? (h : c.containerAt? path = some t) :
    t ∈ c.inlineSchemas := by
  unfold containerAt? at h
  split at h
  · next t' ht =>
    split_ifs at h
    cases h
    obtain ⟨name, hmem⟩ := mem_entries_of_schemaAt ht
    exact List.mem_filterMap.mpr ⟨.inline t, List.mem_map_of_mem hmem, rfl⟩
  · cases h

/-- References add nothing to the height of the table. -/
theorem sum_height_inlineSchemas :
    (c.inlineSchemas.map height).sum = (c.schemas.values.map partHeight).foldr (· + ·) 0 := by
  unfold inlineSchemas
  induction c.schemas.values with
  | nil => rfl
  | cons part parts ih =>
    rw [List.map_cons, List.foldr_cons, ← ih]
    cases part with
    | ref path => exact (Nat.zero_add _).symm
    | inline s => rfl

/-- Where a reference leads to a container, the table has an entry, so the expansion has at
least one step left behind the reference. -/
theorem exists_size_eq_succ (h : c.containerAt? path = some t) :
    ∃ steps, c.schemas.size = steps + 1 := by
  refine Nat.exists_eq_succ_of_ne_zero (fun hsize => ?_)
  have hnil : c.schemas.values = [] := by
    rw [← List.length_eq_zero_iff]
    simpa [OrderedMap.values, OrderedMap.size] using hsize
  have hmem := mem_inlineSchemas_of_containerAt? h
  rw [inlineSchemas, hnil] at hmem
  exact List.not_mem_nil hmem

/-! ## What an expansion shows of the items

An expansion goes along the items of nested arrays only. What it has made of a schema is
therefore known from what the schema has in its place: the same, less expanded, or a
reference to the container. -/

/-- An expansion has the properties of the schema; only items give way. -/
theorem Expands.properties (h : c.Expands s s') : s'.properties = s.properties := by
  cases h <;> rfl

/-- What is no array expands to nothing else. -/
theorem Expands.eq_of_not_isArray (h : c.Expands s s') (ha : s.isArray = false) : s' = s := by
  cases h with
  | refl => rfl
  | target ha' => exact absurd (ha.symm.trans ha') Bool.false_ne_true
  | nested ha' => exact absurd (ha.symm.trans ha') Bool.false_ne_true

/-- **Where inline items of an expansion come from**: the schema has them inline, less
expanded, or it refers to the container that they are an expansion of. -/
theorem Expands.exists_of_items (h : c.Expands s s') (ha : s.isArray = true)
    (hv : s'.items = some (.inline v)) :
    (∃ u, s.items = some (.inline u) ∧ c.Expands u v)
      ∨ ∃ path t, c.RefersTo s path t ∧ c.Expands t v := by
  cases h with
  | refl => exact Or.inl ⟨v, hv, .refl v⟩
  | target _ hi ht h =>
    cases hv
    exact Or.inr ⟨_, _, ⟨ha, hi, ht⟩, h⟩
  | nested _ hi h =>
    cases hv
    exact Or.inl ⟨_, hi, h⟩

/-- Inline items are inline in an expansion. -/
theorem Expands.exists_items (h : c.Expands s s') (hu : s.items = some (.inline u)) :
    ∃ v, s'.items = some (.inline v) ∧ c.Expands u v := by
  cases h with
  | refl => exact ⟨u, hu, .refl u⟩
  | target _ hi _ _ => cases hi.symm.trans hu
  | nested _ hi h =>
    cases hi.symm.trans hu
    exact ⟨_, rfl, h⟩

/-- **A settled expansion has the container** in the place of a reference to it. -/
theorem Expands.exists_items_of_settled (h : c.Expands s s') (hs : c.Settled s')
    (href : c.RefersTo s path t) : ∃ v, s'.items = some (.inline v) ∧ c.Expands t v := by
  cases h with
  | refl => cases (hs href.isArray path href.items).symm.trans href.container
  | target _ hi ht h =>
    cases hi.symm.trans href.items
    cases ht.symm.trans href.container
    exact ⟨_, rfl, h⟩
  | nested _ hi _ => cases hi.symm.trans href.items

end Components

/-- **A schema of the document as the descent meets it**: the schema, and whether the
expansion of an array has gone through it on the way. -/
structure Occurrence where
  schema : Schema
  isExpanded : Bool

/-- **The node in the form of which an occurrence is met.** It is an expansion of the
schema. If an expansion has gone through it, no reference to a container is left among its
items; otherwise it is the schema itself. -/
structure Occurrence.IsMetAs (c : Components) (a : Occurrence) (s' : Schema) : Prop where
  expands : c.Expands a.schema s'
  settled : a.isExpanded = true → c.Settled s'
  untouched : a.isExpanded = false → s' = a.schema

namespace Occurrence.IsMetAs

variable {c : Components} {a : Occurrence} {s u v : Schema}

/-- The first meeting with a schema is with the schema. -/
theorem self (c : Components) (s : Schema) : IsMetAs c ⟨s, false⟩ s :=
  ⟨.refl s, nofun, fun _ => rfl⟩

/-- Once expanded, a schema is met as its expansion. -/
theorem of_settled (h : c.Expands u v) (hv : c.Settled v) : IsMetAs c ⟨u, true⟩ v :=
  ⟨h, fun _ => hv, nofun⟩

/-- An expansion that is expanded once more. -/
theorem of_expandItems? (h : c.Expands u v) :
    IsMetAs c ⟨u, true⟩ ((c.expandItems? v).getD v) := by
  refine of_settled ?_ Components.settled_of_expandItems?
  cases hv : c.expandItems? v with
  | none => exact h
  | some v' => exact h.trans (Components.expandItems?_expands hv)

end Occurrence.IsMetAs

namespace Preparation

variable {p : Preparation} {c : Components} {a b : Occurrence} {s s' t u v : Schema}
  {path : String}

/-! ## The steps at a node, by its items

There are five kinds of nodes: no array, an array without items, one of a reference to no
container, one of a reference to a container, and one of inline items. The steps are stated
for each, since the descent on occurrences distinguishes just these. -/

/-- The steps at a node leave its properties alone. -/
theorem node_properties : (p.node c s).properties = s.properties := by
  by_cases h : p.loosensComposedItems = true ∧ s.shape = .arrayOfComposed
  · rw [node_of_arrayOfComposed h.1 h.2]
  · rw [node_of_not_arrayOfComposed h]
    exact step_induction (P := (·.properties = s.properties)) rfl
      (fun _ hs => (Components.expandItems?_expands hs).properties)

/-- Only arrays are changed by the steps at a node. -/
theorem node_of_not_isArray (ha : s.isArray = false) : p.node c s = s := by
  refine node_eq_self ?_ (Components.expandFrom?_of_not_isArray ha _)
  rintro ⟨-, hshape⟩
  exact absurd (ha.symm.trans (shape_eq_arrayOfComposed_iff.mp hshape).1) Bool.false_ne_true

/-- An array without items stays as it is. -/
theorem node_of_items_none (hi : s.items = none) : p.node c s = s := by
  refine node_eq_self ?_ (Components.expandFrom?_of_items_none hi _)
  rintro ⟨-, hshape⟩
  obtain ⟨-, u, hu, -⟩ := shape_eq_arrayOfComposed_iff.mp hshape
  cases hi.symm.trans hu

/-- Items that are a reference are no composition, whatever they lead to. -/
theorem shape_ne_arrayOfComposed_of_ref (hi : s.items = some (.ref path)) :
    s.shape ≠ .arrayOfComposed := by
  intro hshape
  obtain ⟨-, u, hu, -⟩ := shape_eq_arrayOfComposed_iff.mp hshape
  cases hi.symm.trans hu

/-- A reference to no container stays where it is. -/
theorem node_of_ref_to_none (ha : s.isArray = true) (hi : s.items = some (.ref path))
    (hc : c.containerAt? path = none) : p.node c s = s := by
  refine node_eq_self (fun h => shape_ne_arrayOfComposed_of_ref hi h.2) ?_
  unfold Components.expandItems?
  rw [Components.expandFrom?_of_ref ha hi, Components.replacement?, hc]
  exact congrArg (Option.map _) (ite_self none)

/-- **A reference gives way to its container**, expanded except where it leads back. -/
theorem node_of_refersTo (hp : p.expandsItems = true) (h : c.RefersTo s path t) :
    p.node c s
      = { s with items := some (.inline ((c.expandFrom? c.schemas.size [path] t).getD t)) } := by
  rw [node_of_not_arrayOfComposed (fun hs => shape_ne_arrayOfComposed_of_ref h.items hs.2),
    step, if_pos hp]
  exact Components.expandItems?_of_ref h.isArray h.items h.container

/-- **Inline items are expanded**, if they do not give way to the untyped object. -/
theorem node_of_inline (hp : p.expandsItems = true) (ha : s.isArray = true)
    (hi : s.items = some (.inline u))
    (hkept : p.loosensComposedItems = true → u.isComposed = false) :
    p.node c s = { s with items := some (.inline ((c.expandItems? u).getD u)) } := by
  have hnot : ¬ (p.loosensComposedItems = true ∧ s.shape = .arrayOfComposed) := by
    rintro ⟨hl, hshape⟩
    obtain ⟨-, v, hv, hcomposed⟩ := shape_eq_arrayOfComposed_iff.mp hshape
    cases hi.symm.trans hv
    exact absurd ((hkept hl).symm.trans hcomposed) Bool.false_ne_true
  rw [node_of_not_arrayOfComposed hnot, step, if_pos hp]
  exact Components.expandItems?_of_inline ha hi

/-- An array of itself is put in place as it is: its reference has just been followed. -/
theorem expandFrom?_of_refersTo_self (h : c.RefersTo t path t) :
    c.expandFrom? c.schemas.size [path] t = none := by
  obtain ⟨steps, hsteps⟩ := Components.exists_size_eq_succ h.container
  rw [hsteps, Components.expandFrom?_of_ref h.isArray h.items, Components.replacement?,
    if_pos (List.contains_iff_mem.mpr List.mem_cons_self)]
  rfl

/-- **How a container is met that was put in place of a reference**: expanded, unless it is
an array of itself. -/
theorem isMetAs_of_refersTo (h : c.RefersTo s path t) :
    Occurrence.IsMetAs c ⟨t, true⟩ ((c.expandFrom? c.schemas.size [path] t).getD t)
      ∨ c.RefersTo t path t ∧ (c.expandFrom? c.schemas.size [path] t).getD t = t := by
  obtain ⟨steps, hsteps⟩ := Components.exists_size_eq_succ h.container
  rw [hsteps]
  have hstands : c.Settled ((c.expandFrom? (steps + 1) [path] t).getD t)
      ∨ (t.isArray = true ∧ t.items = some (.ref path))
        ∧ (c.expandFrom? (steps + 1) [path] t).getD t = t :=
    Components.settled_of_expandFrom? steps
  rcases hstands with hsettled | ⟨⟨ha, hi⟩, hself⟩
  · refine Or.inl (Occurrence.IsMetAs.of_settled ?_ hsettled)
    cases ht : c.expandFrom? (steps + 1) [path] t with
    | none => exact .refl t
    | some t' => exact Components.expandFrom?_expands _ _ t t' ht
  · exact Or.inr ⟨⟨ha, hi, h.container⟩, hself⟩

/-! ## The descent on occurrences -/

/-- **One step of the descent, on occurrences.** Properties, and the items of what is no
array, are met for the first time. Inline items of an array have been expanded with it,
and so has the container that has taken the place of a reference. What is a composition
gives way if compositions are loosened, unless it has only just been put in place.

An array of itself is the one container that its own expansion leaves as it is. -/
inductive Descends (p : Preparation) (c : Components) (a : Occurrence) : Occurrence → Prop
  | property {name : String} {u : Schema} (h : (name, .inline u) ∈ a.schema.properties) :
      Descends p c a ⟨u, false⟩
  | looseItems {u : Schema} (ha : a.schema.isArray = false)
      (hi : a.schema.items = some (.inline u)) : Descends p c a ⟨u, false⟩
  | items {u : Schema} (ha : a.schema.isArray = true) (hi : a.schema.items = some (.inline u))
      (hkept : p.loosensComposedItems = true → u.isComposed = false) : Descends p c a ⟨u, true⟩
  | target {path : String} {t : Schema} (h : c.RefersTo a.schema path t)
      (hkept : p.loosensComposedItems = true → a.isExpanded = true → t.isComposed = false) :
      Descends p c a ⟨t, true⟩
  | itself {path : String} {t : Schema} (ha : a.isExpanded = false)
      (h : c.RefersTo a.schema path t) (ht : c.RefersTo t path t) : Descends p c a ⟨t, false⟩

/-- A step goes to what the schema holds, or to a container that it refers to. This one is
expanded, or it is an array of itself and the step can be repeated. -/
theorem Descends.holds_or_refersTo (h : p.Descends c a b) :
    a.schema.Holds b.schema
      ∨ ∃ path, c.RefersTo a.schema path b.schema ∧ (b.isExpanded = true ∨ p.Descends c b b) := by
  cases h with
  | property h => exact Or.inl (.property h)
  | looseItems _ hi => exact Or.inl (.items hi)
  | items _ hi _ => exact Or.inl (.items hi)
  | target h _ => exact Or.inr ⟨_, h, Or.inl rfl⟩
  | itself _ h ht => exact Or.inr ⟨_, h, Or.inr (.itself rfl ht ht)⟩

/-- The step asks for nothing but what the schema holds and whether it is an array. -/
theorem Descends.congr {isExpanded : Bool} (hps : s'.properties = s.properties)
    (hitems : s'.items = s.items) (ha : s'.isArray = s.isArray)
    (h : p.Descends c ⟨s, isExpanded⟩ b) : p.Descends c ⟨s', isExpanded⟩ b := by
  cases h with
  | property h => exact .property (hps ▸ h)
  | looseItems hs hi => exact .looseItems (ha.trans hs) (hitems.trans hi)
  | items hs hi hkept => exact .items (ha.trans hs) (hitems.trans hi) hkept
  | target h hkept => exact .target ⟨ha.trans h.isArray, hitems.trans h.items, h.container⟩ hkept
  | itself hs h ht => exact .itself hs ⟨ha.trans h.isArray, hitems.trans h.items, h.container⟩ ht

/-- What the steps put in the place of a reference: only where no expansion has gone through
the array yet is there a reference to a container left. -/
theorem exists_descends_of_ref (hp : p.expandsItems = true) (hmet : a.IsMetAs c s')
    (ha : a.schema.isArray = true) (hi : s'.items = some (.ref path))
    (hu : (p.node c s').items = some (.inline u)) : ∃ b, p.Descends c a b ∧ b.IsMetAs c u := by
  have harray : s'.isArray = true := hmet.expands.sameFrame.isArray.trans ha
  cases hc : c.containerAt? path with
  | none =>
    rw [node_of_ref_to_none harray hi hc] at hu
    cases hi.symm.trans hu
  | some t =>
    have hnew : a.isExpanded = false := by
      rw [Bool.eq_false_iff]
      exact fun h => by cases (hmet.settled h harray path hi).symm.trans hc
    have href : c.RefersTo a.schema path t := ⟨ha, hmet.untouched hnew ▸ hi, hc⟩
    rw [node_of_refersTo hp ⟨harray, hi, hc⟩] at hu
    cases hu
    rcases isMetAs_of_refersTo href with hmet' | ⟨hself, heq⟩
    · exact ⟨_, .target href (fun _ h => absurd (hnew.symm.trans h) Bool.false_ne_true), hmet'⟩
    · rw [heq]
      exact ⟨_, .itself hnew href hself, .self c t⟩

/-- What the steps make of inline items: the array has them inline, or has them from a
container that an expansion above has put in place. -/
theorem exists_descends_of_inline (hp : p.expandsItems = true) (hmet : a.IsMetAs c s')
    (ha : a.schema.isArray = true) (hi : s'.items = some (.inline v))
    (hu : (p.node c s').items = some (.inline u)) :
    u = untypedObject ∨ ∃ b, p.Descends c a b ∧ b.IsMetAs c u := by
  have harray : s'.isArray = true := hmet.expands.sameFrame.isArray.trans ha
  by_cases hl : p.loosensComposedItems = true ∧ v.isComposed = true
  · rw [node_of_arrayOfComposed hl.1
      (shape_eq_arrayOfComposed_iff.mpr ⟨harray, v, hi, hl.2⟩)] at hu
    cases hu
    exact Or.inl rfl
  · have hkept : p.loosensComposedItems = true → v.isComposed = false :=
      fun h => Bool.eq_false_iff.mpr (fun hv => hl ⟨h, hv⟩)
    rw [node_of_inline hp harray hi hkept] at hu
    cases hu
    right
    rcases hmet.expands.exists_of_items ha hi with ⟨w, hw, hwv⟩ | ⟨path, t, href, htv⟩
    · exact ⟨_, .items ha hw (fun h => hwv.sameFrame.isComposed.symm.trans (hkept h)),
        .of_expandItems? hwv⟩
    · exact ⟨_, .target href (fun h _ => htv.sameFrame.isComposed.symm.trans (hkept h)),
        .of_expandItems? htv⟩

/-- **The descent stays on occurrences.** What a node holds after the steps is the untyped
object in the place of a composition, or what a next occurrence is met as. -/
theorem exists_descends (hp : p.expandsItems = true) (hmet : a.IsMetAs c s')
    (hu : (p.node c s').Holds u) :
    u = untypedObject ∨ ∃ b, p.Descends c a b ∧ b.IsMetAs c u := by
  cases hu with
  | property hmem =>
    rw [node_properties, hmet.expands.properties] at hmem
    exact Or.inr ⟨⟨u, false⟩, .property hmem, .self c u⟩
  | items hit =>
    cases ha : a.schema.isArray with
    | false =>
      rw [node_of_not_isArray (hmet.expands.sameFrame.isArray.trans ha),
        hmet.expands.eq_of_not_isArray ha] at hit
      exact Or.inr ⟨⟨u, false⟩, .looseItems ha hit, .self c u⟩
    | true =>
      cases hi : s'.items with
      | none =>
        rw [node_of_items_none hi] at hit
        cases hi.symm.trans hit
      | some part =>
        cases part with
        | ref path => exact Or.inr (exists_descends_of_ref hp hmet ha hi hit)
        | inline v => exact exists_descends_of_inline hp hmet ha hi hit

/-- **The descent follows the occurrences.** Where there is a step, the node holds what the
next occurrence is met as, or that of an array of itself in its stead. -/
theorem exists_holds_node (hp : p.expandsItems = true) (hmet : a.IsMetAs c s')
    (h : p.Descends c a b) :
    ∃ b' u, (p.node c s').Holds u ∧ b'.IsMetAs c u ∧ (b' = b ∨ p.Descends c b' b') := by
  have harray : s'.isArray = a.schema.isArray := hmet.expands.sameFrame.isArray
  cases h with
  | @property name u h =>
    have hmem : (name, .inline u) ∈ (p.node c s').properties := by
      rwa [node_properties, hmet.expands.properties]
    exact ⟨_, u, .property hmem, .self c u, Or.inl rfl⟩
  | @looseItems u ha hi =>
    refine ⟨_, u, .items ?_, .self c u, Or.inl rfl⟩
    rwa [node_of_not_isArray (harray.trans ha), hmet.expands.eq_of_not_isArray ha]
  | items ha hi hkept =>
    obtain ⟨v, hv, hexp⟩ := hmet.expands.exists_items hi
    refine ⟨_, _, .items ?_, .of_expandItems? hexp, Or.inl rfl⟩
    rw [node_of_inline hp (harray.trans ha) hv
      (fun hl => hexp.sameFrame.isComposed.trans (hkept hl))]
  | @target path t href hkept =>
    cases hnew : a.isExpanded with
    | true =>
      obtain ⟨v, hv, hexp⟩ := hmet.expands.exists_items_of_settled (hmet.settled hnew) href
      refine ⟨_, _, .items ?_, .of_expandItems? hexp, Or.inl rfl⟩
      rw [node_of_inline hp (harray.trans href.isArray) hv
        (fun hl => hexp.sameFrame.isComposed.trans (hkept hl hnew))]
    | false =>
      rw [hmet.untouched hnew, node_of_refersTo hp href]
      rcases isMetAs_of_refersTo href with hmet' | ⟨hself, heq⟩
      · exact ⟨_, _, .items rfl, hmet', Or.inl rfl⟩
      · rw [heq]
        exact ⟨⟨t, false⟩, t, .items rfl, .self c t, Or.inr (.itself rfl hself hself)⟩
  | @itself path t hnew href hself =>
    rw [hmet.untouched hnew, node_of_refersTo hp href, expandFrom?_of_refersTo_self hself]
    exact ⟨_, t, .items rfl, .self c t, Or.inl rfl⟩

/-! ## Circles -/

/-- **The descent runs on**: it comes to an occurrence that leads back to itself. -/
def RunsOn (p : Preparation) (c : Components) (a : Occurrence) : Prop :=
  ∃ b, ReflTransGen (p.Descends c) a b ∧ TransGen (p.Descends c) b b

/-- **The descent runs on from an occurrence exactly if it does from a next one.** -/
theorem runsOn_iff_exists : p.RunsOn c a ↔ ∃ b, p.Descends c a b ∧ p.RunsOn c b := by
  constructor
  · rintro ⟨e, hae, hee⟩
    rcases ReflTransGen.cases_head hae with rfl | ⟨b, hab, hbe⟩
    · obtain ⟨b, hab, hba⟩ := TransGen.head'_iff.mp hee
      exact ⟨b, hab, a, hba, hee⟩
    · exact ⟨b, hab, e, hbe, hee⟩
  · rintro ⟨b, hab, e, hbe, hee⟩
    exact ⟨e, .head hab hbe, hee⟩

/-- A step that can be repeated is a circle of its own. -/
theorem runsOn_of_descends_self (h : p.Descends c a a) : p.RunsOn c a := ⟨a, .refl, .single h⟩

/-- Like the steps, running on asks only for what the schema holds. -/
theorem RunsOn.congr {isExpanded : Bool} (hps : s'.properties = s.properties)
    (hitems : s'.items = s.items) (ha : s'.isArray = s.isArray)
    (h : p.RunsOn c ⟨s, isExpanded⟩) : p.RunsOn c ⟨s', isExpanded⟩ := by
  obtain ⟨b, hb, hrun⟩ := runsOn_iff_exists.mp h
  exact runsOn_iff_exists.mpr ⟨b, hb.congr hps hitems ha, hrun⟩

/-- **No depth suffices where the descent runs on.** -/
theorem nodesWithin?_eq_none (hp : p.expandsItems = true) (hrun : p.RunsOn c a)
    (hmet : a.IsMetAs c s) (depth : Nat) : p.nodesWithin? c depth s = none := by
  induction depth generalizing a s with
  | zero => rfl
  | succ depth ih =>
    rw [Option.eq_none_iff_forall_ne_some]
    intro s' hnodes
    obtain ⟨b, hab, hb⟩ := runsOn_iff_exists.mp hrun
    -- The node holds an occurrence from which the descent runs on, one level further down.
    obtain ⟨b', u, hu, hmet', hnext⟩ := exists_holds_node hp hmet hab
    have hb' : p.RunsOn c b' := by
      rcases hnext with rfl | hself
      · exact hb
      · exact runsOn_of_descends_self hself
    obtain ⟨u', -, hu'⟩ := (nodesWithin?_succ_eq_some.mp hnodes).exists_of_holds_left hu
    rw [ih hb' hmet'] at hu'
    cases hu'

/-- **A depth that suffices where the descent does not run on**: more than the height of the
schema and the heights of the containers that can still be entered. By induction on the
depth. A step to something held lowers the height; one to a container takes it off those
that can still be entered, as the descent would run on if it came back. -/
theorem exists_nodesWithin? (hp : p.expandsItems = true) (hrun : ¬ p.RunsOn c a) {depth : Nat}
    (rest : List Schema)
    (hrest : ∀ t ∈ c.inlineSchemas, TransGen (p.Descends c) a ⟨t, true⟩ → t ∈ rest)
    (hdepth : a.schema.height + (rest.map height).sum < depth) (hmet : a.IsMetAs c s) :
    ∃ s', p.nodesWithin? c depth s = some s' := by
  classical
  induction depth generalizing a s rest with
  | zero => exact absurd hdepth (Nat.not_lt_zero _)
  | succ depth ih =>
    refine exists_nodesWithin?_succ (fun u hu => ?_)
    have hpos := a.schema.height_pos
    rcases exists_descends hp hmet hu with rfl | ⟨b, hab, hmet'⟩
    · obtain ⟨depth, rfl⟩ := Nat.exists_eq_succ_of_ne_zero (n := depth) (by omega)
      exact exists_nodesWithin?_untypedObject depth
    · have hb : ¬ p.RunsOn c b := fun h => hrun (runsOn_iff_exists.mpr ⟨b, hab, h⟩)
      rcases hab.holds_or_refersTo with hheld | ⟨path, href, hexpanded | hself⟩
      · have hlt := hheld.height_lt
        exact ih hb rest (fun t ht hbt => hrest t ht (.head hab hbt)) (by omega) hmet'
      · -- A container that is entered is not entered again below.
        obtain ⟨t, isExpanded⟩ := b
        obtain rfl : isExpanded = true := hexpanded
        have hmem := Components.mem_inlineSchemas_of_containerAt? href.container
        have hsum := List.sum_map_erase height (hrest t hmem (.single hab))
        have hlt : t.height + ((rest.erase t).map height).sum < depth := by omega
        refine ih hb (rest.erase t) (fun w hw htw => ?_) hlt hmet'
        refine (List.mem_erase_of_ne ?_).mpr (hrest w hw (.head hab htw))
        rintro rfl
        exact hb ⟨_, .refl, htw⟩
      · exact absurd (runsOn_of_descends_self hself) hb

end Preparation

end ClientGen
