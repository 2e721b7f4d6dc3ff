import ClientGen.Conversion.Models
import Mathlib.Data.List.Nodup

/-!
# Where the properties of a class come from

The properties of a composition are collected from its members, and a member
contributes what the schemas along its own `allOf` declare. `Components.lineage`
lists those schemas, in the order in which they contribute.

A data class must not declare one name twice. The own properties of a model
never do: `firstOfEachName` keeps one property of each wire name, and none whose
name is inherited. The inherited ones are taken as the parent contributes them,
a redeclaration along its `allOf` included. So the names of a model are distinct
exactly where no two schemas along the lineage of the parent declare one name
(`model_wireNames_nodup_iff`).
-/

namespace ClientGen

namespace Schema

/-- The names of the properties that a schema declares itself. -/
def propertyNames (s : Schema) : List String := s.properties.map Prod.fst

/-- The first reference among the members of `allOf`: the parent. -/
def parentPath? (s : Schema) : Option String := s.allOf.findSome? RefOr.path?

end Schema

namespace Components

/-- **The schemas that a member contributes from**: those along its `allOf`, each
behind its own members. A schema that is reached twice is listed twice. -/
def lineage (c : Components) : Nat → RefOr Schema → List Schema
  | 0, _ => []
  | levels + 1, member =>
    match c.resolve member with
    | .error _ => []
    | .ok s => s.allOf.flatMap (c.lineage levels) ++ [s]

/-- The lineage of the parent of a schema; empty if it has none. -/
def parentLineage (c : Components) (s : Schema) : List Schema :=
  match s.parentPath? with
  | some path => c.lineage Converter.compositionLevels (.ref path)
  | none => []

end Components

namespace Converter

open Client (Property Model Views)

variable (k : Converter)

/-! ## What is kept of a list of properties

The list is gone through from the front with the names seen so far. Each of the three
statements is an induction along it, for all names that may have been seen. -/

/-- What is kept stands in the list, in the same order. -/
theorem firstOfEachName_sublist (seen : List String) (ps : List Property) :
    (firstOfEachName seen ps).Sublist ps := by
  induction ps generalizing seen with
  | nil => exact List.Sublist.refl []
  | cons p ps ih =>
    rw [firstOfEachName]
    split
    · exact (ih seen).cons p
    · exact (ih _).cons_cons p

/-- Nothing is kept whose name was seen. -/
theorem wireName_notMem_of_mem_firstOfEachName {seen : List String} {ps : List Property}
    {p : Property} (h : p ∈ firstOfEachName seen ps) : p.wireName ∉ seen := by
  induction ps generalizing seen with
  | nil => cases h
  | cons q ps ih =>
    rw [firstOfEachName] at h
    split at h
    · exact ih h
    · next hq =>
      rcases List.mem_cons.mp h with rfl | h
      · simpa using hq
      · exact fun hp => ih h (List.mem_cons_of_mem _ hp)

/-- **No two properties that are kept share a name.** -/
theorem firstOfEachName_nodup (seen : List String) (ps : List Property) :
    ((firstOfEachName seen ps).map (·.wireName)).Nodup := by
  induction ps generalizing seen with
  | nil => exact List.nodup_nil
  | cons p ps ih =>
    rw [firstOfEachName]
    split
    · exact ih seen
    · refine List.nodup_cons.mpr ⟨fun hp => ?_, ih _⟩
      obtain ⟨q, hq, hqp⟩ := List.mem_map.mp hp
      exact wireName_notMem_of_mem_firstOfEachName hq (hqp ▸ List.mem_cons_self)

/-! ## What a member contributes

What is said here does not depend on what properties become of the schemas: only the names
and the mark of inheritance are followed. -/

/-- A property has the name that it is declared under. -/
@[simp] theorem property_wireName (wireName : String) (part : RefOr Schema) (required : Bool) :
    (k.property wireName part required).wireName = wireName := rfl

/-- The own properties of a schema have the names that it declares. -/
theorem wireNames_ownProperties (s : Schema) :
    (k.ownProperties s).map (·.wireName) = s.propertyNames := by
  unfold ownProperties Schema.propertyNames
  rw [List.map_map]
  rfl

/-- None of them is marked as inherited. -/
theorem inherited_of_mem_ownProperties {s : Schema} {p : Property}
    (h : p ∈ k.ownProperties s) : p.inherited = false := by
  obtain ⟨e, -, rfl⟩ := List.mem_map.mp h
  rfl

/-- **A member contributes the properties that its lineage declares**, one schema after the
other. By induction on the levels, at which both stop. -/
theorem contribution_eq_flatMap_lineage (levels : Nat) (member : RefOr Schema) :
    k.contribution levels member
      = (k.components.lineage levels member).flatMap k.ownProperties := by
  induction levels generalizing member with
  | zero => rfl
  | succ levels ih =>
    rw [contribution, Components.lineage]
    cases k.components.resolve member with
    | error e => rfl
    | ok s =>
      -- Both lists go through the members first, each one level less deep.
      simp only [List.flatMap_append, List.flatMap_assoc, List.flatMap_singleton]
      rw [List.flatMap_congr (fun m _ => ih m)]

/-- Nor is any that a member contributes. -/
theorem inherited_of_mem_contribution {levels : Nat} {member : RefOr Schema} {p : Property}
    (h : p ∈ k.contribution levels member) : p.inherited = false := by
  rw [contribution_eq_flatMap_lineage] at h
  obtain ⟨s, -, hp⟩ := List.mem_flatMap.mp h
  exact k.inherited_of_mem_ownProperties hp

/-- No property that is collected is marked as inherited. -/
theorem inherited_of_mem_collectedProperties {s : Schema} {p : Property}
    (h : p ∈ k.collectedProperties s) : p.inherited = false := by
  simp only [collectedProperties, List.mem_append, List.mem_flatMap] at h
  rcases h with (⟨m, -, hp⟩ | hp) | ⟨m, -, hp⟩
  · exact k.inherited_of_mem_contribution hp
  · exact k.inherited_of_mem_ownProperties hp
  · exact k.inherited_of_mem_contribution hp

/-! ## The names of a model

The names of a model are the inherited ones, followed by what is kept of the others. As none
is kept that is inherited, and none twice, the inherited ones decide. -/

/-- The parent is the first reference among the members. -/
theorem splitAtParent_parent (members : List (RefOr Schema)) :
    (splitAtParent members).2.1 = (members.findSome? RefOr.path?).map .ref := by
  induction members with
  | nil => rfl
  | cons m members ih =>
    cases m with
    | ref path => rfl
    | inline s => exact ih

/-- The inherited names are those declared along the lineage of the parent. -/
theorem wireNames_inheritedProperties (s : Schema) :
    (k.inheritedProperties s).map (·.wireName)
      = (k.components.parentLineage s).flatMap Schema.propertyNames := by
  unfold inheritedProperties Components.parentLineage Schema.parentPath?
  rw [splitAtParent_parent]
  cases s.allOf.findSome? RefOr.path? with
  | none => rfl
  | some path =>
    show List.map _ (List.map _ (k.contribution compositionLevels (.ref path))) = _
    rw [List.map_map, contribution_eq_flatMap_lineage, List.map_flatMap]
    exact List.flatMap_congr (fun t _ => k.wireNames_ownProperties t)

/-- The names of the views are distinct as soon as the inherited ones are. -/
theorem views_wireNames_nodup_iff (s : Schema) :
    ((k.views s).all.map (·.wireName)).Nodup
      ↔ ((k.components.parentLineage s).flatMap Schema.propertyNames).Nodup := by
  rw [← k.wireNames_inheritedProperties s]
  show ((k.inheritedProperties s ++ firstOfEachName _ _).map (·.wireName)).Nodup ↔ _
  rw [List.map_append, List.nodup_append']
  -- The own names are distinct and none of them is inherited, whatever is inherited.
  refine ⟨fun h => h.1, fun h => ⟨h, firstOfEachName_nodup _ _, fun name hi ho => ?_⟩⟩
  obtain ⟨p, hp, rfl⟩ := List.mem_map.mp ho
  exact wireName_notMem_of_mem_firstOfEachName hp hi

/-- **What a class takes from its schema**: the views, the members and the data type. The
rest is that of its base. -/
theorem classModel_eq (base : Model) (s : Schema) :
    k.classModel base s = { base with
      views := k.views s
      parent := (k.parentNames s.allOf).head?
      allOf := k.parentNames s.allOf
      oneOf := s.oneOf.map k.partType
      anyOf := s.anyOf.map k.partType
      dataType := (k.classModel base s).dataType } := by
  unfold classModel
  dsimp only
  split <;> rfl

/-- The model of a composition or an object has the views of its schema. -/
theorem classModel_views (base : Model) (s : Schema) :
    (k.classModel base s).views = k.views s := by
  rw [classModel_eq]

/-- **Only a composition or an object has views**: those of its schema. -/
theorem model_views (name : String) (s : Schema) :
    (k.model name s).views
      = if s.kind = .composed ∨ s.kind = .object then k.views s else {} := by
  unfold model
  cases hk : s.kind with
  | primitive =>
    dsimp only
    split <;> rfl
  | object => exact k.classModel_views _ s
  | array => rfl
  | map => rfl
  | composed => exact k.classModel_views _ s

/-- An object without a composition has no parent. -/
theorem parentLineage_of_kind_object (c : Components) {s : Schema} (h : s.kind = .object) :
    c.parentLineage s = [] := by
  have hc : s.isComposed = false := by
    unfold Schema.kind at h
    split_ifs at h with ha hm hc
    exact Bool.eq_false_iff.mpr hc
  have hall : s.allOf = [] := by
    unfold Schema.isComposed at hc
    simp only [Bool.or_eq_false_iff, Bool.not_eq_false', List.isEmpty_iff] at hc
    exact hc.1.1
  unfold Components.parentLineage Schema.parentPath?
  rw [hall]
  rfl

/-- **The names of a model are distinct exactly where the lineage of its parent
declares none twice**: each schema along it declares its names once, and no two
declare one name. Nothing else can repeat a name: neither the other members of
`allOf`, nor the alternatives, nor what the schema declares itself.

The kinds of schemas other than compositions are without a condition: containers and
primitive types have no properties, and an object without a composition has no parent. -/
theorem model_wireNames_nodup_iff (name : String) (s : Schema) :
    ((k.model name s).views.all.map (·.wireName)).Nodup
      ↔ (s.kind = .composed →
          (∀ t ∈ k.components.parentLineage s, t.propertyNames.Nodup)
            ∧ (k.components.parentLineage s).Pairwise
                (fun t u => t.propertyNames.Disjoint u.propertyNames)) := by
  rw [model_views]
  cases hk : s.kind with
  | composed =>
    rw [if_pos (Or.inl rfl), views_wireNames_nodup_iff, List.nodup_flatMap]
    exact ⟨fun h _ => h, fun h => h rfl⟩
  | object =>
    rw [if_pos (Or.inr rfl), views_wireNames_nodup_iff,
      parentLineage_of_kind_object k.components hk]
    exact ⟨fun _ h => (nomatch h), fun _ => List.nodup_nil⟩
  | primitive => exact ⟨fun _ h => (nomatch h), fun _ => List.nodup_nil⟩
  | array => exact ⟨fun _ h => (nomatch h), fun _ => List.nodup_nil⟩
  | map => exact ⟨fun _ h => (nomatch h), fun _ => List.nodup_nil⟩

/-- A class whose parent declares a name anew that the parent's own parent
declares. -/
def redeclaring : Components where
  schemas := .ofEntries
    [("Base", .inline { properties := [("id", .inline (.ofType "string"))] }),
     ("Pet", .inline
       { properties := [("id", .inline (.ofType "string"))]
         allOf := [.ref "#/components/schemas/Base"] }),
     ("Cat", .inline { allOf := [.ref "#/components/schemas/Pet"] })]

/-- **A name that the parent redeclares is inherited twice**: what is contributed along the
lineage of the parent is not gone through for names, as the own properties are. -/
theorem model_wireNames_not_nodup_of_redeclaring :
    ¬ ((Converter.model ⟨redeclaring, .standard, {}⟩ "Cat"
        { allOf := [.ref "#/components/schemas/Pet"] }).views.all.map (·.wireName)).Nodup := by
  decide +kernel

end Converter

end ClientGen
