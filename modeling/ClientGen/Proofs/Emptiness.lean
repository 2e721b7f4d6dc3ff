import ClientGen.Proofs.ClosedWorld

/-!
# Which models have no properties

A model has no properties if it is no class, or if it is a class and nothing that it takes
properties from declares any: neither the schema itself nor a schema along the lineage of
one of its members (`Components.sources`). That some of what they declare is dropped,
because its name is there already, never leaves nothing (`Converter.views_all_eq_nil_iff`).

No adjustment gives a model properties or takes them all
(`Client.ModelAdjustment.apply_all_eq_nil_iff`), and neither does preparation. So whether a
model has properties is a matter of the document alone
(`Document.exists_schema_of_mem_models`). It is read off the outlines of models, which the
preparation and the adjustments leave alone except for what is required.
-/

namespace ClientGen

open Client (Property Model ModelAdjustment)

/-- **The schemas that a schema takes properties from**: those along the lineages of its
members, and itself. -/
def Components.sources (c : Components) (s : Schema) : List Schema :=
  (s.allOf ++ s.oneOf ++ s.anyOf).flatMap (c.lineage Converter.compositionLevels) ++ [s]

/-- **A schema declares nothing**: neither it nor any of its members has a property. -/
def Components.DeclaresNothing (c : Components) (s : Schema) : Prop :=
  ∀ t ∈ c.sources s, t.properties = []

namespace Converter

variable (k : Converter)

/-- Of some properties, the first is kept: no name has been seen then. -/
theorem firstOfEachName_eq_nil_iff {ps : List Property} : firstOfEachName [] ps = [] ↔ ps = [] := by
  cases ps with
  | nil => exact Iff.rfl
  | cons p ps =>
    rw [firstOfEachName, if_neg (by simp)]
    simp

/-- The members are those before the parent, the parent and those behind it. -/
theorem splitAtParent_append (members : List (RefOr Schema)) :
    (splitAtParent members).1 ++ (splitAtParent members).2.1.toList ++ (splitAtParent members).2.2
      = members := by
  induction members with
  | nil => rfl
  | cons m members ih =>
    cases m with
    | ref path => rfl
    | inline s => exact congrArg (RefOr.inline s :: ·) ih

/-- Nothing is inherited if the parent contributes nothing. -/
theorem inheritedProperties_eq_nil_iff (s : Schema) :
    k.inheritedProperties s = []
      ↔ ∀ m ∈ (splitAtParent s.allOf).2.1.toList, k.memberProperties m = [] := by
  unfold inheritedProperties
  cases (splitAtParent s.allOf).2.1 with
  | none => simp
  | some parent => simp

/-- Nothing else is collected if neither a member nor the schema itself contributes anything. -/
theorem collectedProperties_eq_nil_iff (s : Schema) :
    k.collectedProperties s = []
      ↔ (∀ m ∈ (splitAtParent s.allOf).1 ++ (splitAtParent s.allOf).2.2, k.memberProperties m = [])
        ∧ s.properties = [] ∧ ∀ m ∈ s.oneOf ++ s.anyOf, k.memberProperties m = [] := by
  unfold collectedProperties ownProperties
  simp only [List.append_eq_nil_iff, List.flatMap_eq_nil_iff, List.map_eq_nil_iff, and_assoc]

/-- A member contributes nothing if no schema along its lineage has a property. -/
theorem memberProperties_eq_nil_iff (member : RefOr Schema) :
    k.memberProperties member = []
      ↔ ∀ t ∈ k.components.lineage compositionLevels member, t.properties = [] := by
  unfold memberProperties
  rw [contribution_eq_flatMap_lineage, List.flatMap_eq_nil_iff]
  simp only [ownProperties, List.map_eq_nil_iff]

/-- **The views of a schema are empty exactly if it declares nothing.** The members are gone
through in three groups, before the parent, the parent, and behind it, and together these
are all of them. -/
theorem views_all_eq_nil_iff (s : Schema) :
    (k.views s).all = [] ↔ k.components.DeclaresNothing s := by
  have hviews : (k.views s).all = []
      ↔ k.inheritedProperties s = [] ∧ k.collectedProperties s = [] := by
    show k.inheritedProperties s ++ firstOfEachName _ (k.collectedProperties s) = [] ↔ _
    rw [List.append_eq_nil_iff, and_congr_right_iff]
    intro hin
    rw [hin, List.map_nil, firstOfEachName_eq_nil_iff]
  have hmembers : (∀ m ∈ s.allOf, k.memberProperties m = [])
      ↔ (∀ m ∈ (splitAtParent s.allOf).2.1.toList, k.memberProperties m = [])
        ∧ ∀ m ∈ (splitAtParent s.allOf).1 ++ (splitAtParent s.allOf).2.2,
            k.memberProperties m = [] := by
    conv_lhs => rw [← splitAtParent_append s.allOf]
    simp only [List.forall_mem_append]
    tauto
  rw [hviews, inheritedProperties_eq_nil_iff, collectedProperties_eq_nil_iff]
  unfold Components.DeclaresNothing Components.sources
  simp only [List.forall_mem_append, List.forall_mem_flatMap, List.forall_mem_singleton,
    ← memberProperties_eq_nil_iff]
  rw [hmembers]
  simp only [List.forall_mem_append]
  tauto

/-- **A model has no properties unless it is a class, and then if its schema declares
nothing.** -/
theorem model_all_eq_nil_iff (name : String) (s : Schema) :
    (k.model name s).views.all = []
      ↔ (s.kind = .composed ∨ s.kind = .object → k.components.DeclaresNothing s) := by
  rw [model_views]
  split_ifs with hkind
  · rw [views_all_eq_nil_iff, imp_iff_right hkind]
  · exact ⟨fun _ h => absurd h hkind, fun _ => rfl⟩

/-- A class without properties stands for an untyped object. -/
theorem classModel_dataType (base : Model) {s : Schema} (h : (k.views s).all = []) :
    (k.classModel base s).dataType = some k.anyType := by
  have hs : s.properties = [] :=
    (k.views_all_eq_nil_iff s).mp h s (List.mem_append_right _ List.mem_cons_self)
  unfold classModel
  dsimp only
  rw [if_pos]
  rw [hs, h]
  exact Bool.or_true _

end Converter

/-- Whether a model has properties can be read off its outline, relaxed or not. -/
theorem Client.Model.all_eq_nil_of_outline {m : Model} {o : Client.Outline} {relaxes : Bool}
    (h : m.outline = o.relaxed relaxes) : m.views.all = [] ↔ o.fields = [] := by
  rw [← List.map_eq_nil_iff (f := Property.field), fields_of_outline h, List.map_eq_nil_iff]

/-- **No adjustment gives a model properties, or takes them all.** -/
theorem Client.ModelAdjustment.apply_all_eq_nil_iff (a : ModelAdjustment) (m : Model) :
    (a.apply m).views.all = [] ↔ m.views.all = [] :=
  (Model.all_eq_nil_of_outline (a.apply_outline m)).trans List.map_eq_nil_iff

/-- **A model of a client has no properties** exactly if the schema of the document that it is
the model of is no class or declares nothing. -/
theorem Document.exists_schema_of_mem_models {d : Document} {policy : ConversionPolicy}
    {options : ConversionOptions} {client : Client} (h : d.toClient policy options = .ok client)
    {m : Model} (hm : m ∈ client.models) :
    ∃ s, (m.name, .inline s) ∈ d.componentsOrNone.schemas.entries
      ∧ (m.views.all = []
        ↔ (s.kind = .composed ∨ s.kind = .object → d.componentsOrNone.DeclaresNothing s)) := by
  have houtline : m.outline ∈ client.models.map Model.outline := List.mem_map_of_mem hm
  rw [toClient_outlines h, outlines, List.map_map] at houtline
  obtain ⟨m₀, hm₀, houtline⟩ := List.mem_map.mp houtline
  obtain ⟨name, s, hs, rfl⟩ := Conversion.mem_models.mp hm₀
  have hname : m.name = name := by
    rw [Model.name_of_outline houtline.symm]
    exact (ModelAdjustment.apply_name _ _).trans (Converter.model_name _ name s)
  refine ⟨s, hname ▸ hs, (Model.all_eq_nil_of_outline houtline.symm).trans ?_⟩
  show List.map _ _ = [] ↔ _
  rw [List.map_eq_nil_iff, ModelAdjustment.apply_all_eq_nil_iff, Converter.model_all_eq_nil_iff]

end ClientGen
