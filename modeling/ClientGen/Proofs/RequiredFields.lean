import ClientGen.Proofs.Composition

/-!
# Which fields of a composition are required

A field of a class is a property that some schema declares: the schema of the class itself, or one
along the lineage of a member. The mark of a field is that of this declaration. It says whether
the schema that declares the field requires it (`Converter.model_required_iff`), and nothing is
merged into it: a name that is required by one member of `allOf` and declared by another makes an
optional field, although all members hold together (`Converter.not_model_required_of_member`).

Which schema a field is taken from is settled as its name is. Inherited fields are those that the
lineage of the parent declares; any other field is that of the first schema to declare its name,
in the order in which the members are gone through (`Components.ownLineage`).
-/

namespace ClientGen

/-- **The schemas that the fields are collected from which are not inherited**, in order: those
along the other members of `allOf`, the schema itself, and those along its alternatives. -/
def Components.ownLineage (c : Components) (s : Schema) : List Schema :=
  let (before, _, behind) := Converter.splitAtParent s.allOf
  (before ++ behind).flatMap (c.lineage Converter.compositionLevels) ++ [s]
    ++ (s.oneOf ++ s.anyOf).flatMap (c.lineage Converter.compositionLevels)

namespace Converter

open Client (Property)

variable {k : Converter} {s d : Schema} {f : Property}

/-! ## The first property of a name

Keeping one property of each name keeps the first, whatever names have been seen before. So
what stands in front of it in the list has other names. -/

/-- A property is kept as the first one of its name: one in front of it with the same name
would have been kept, and would have kept it out. -/
theorem find?_of_mem_firstOfEachName {seen : List String} {ps : List Property}
    (h : f ∈ firstOfEachName seen ps) : ps.find? (·.wireName = f.wireName) = some f := by
  induction ps generalizing seen with
  | nil => cases h
  | cons q ps ih =>
    have hnot := wireName_notMem_of_mem_firstOfEachName h
    rw [firstOfEachName] at h
    split_ifs at h with hq
    · have hne : q.wireName ≠ f.wireName := fun heq => hnot (heq ▸ List.contains_iff_mem.mp hq)
      rw [List.find?_cons_of_neg (by simpa using hne)]
      exact ih h
    · rcases List.mem_cons.mp h with rfl | h
      · exact List.find?_cons_of_pos (by simp)
      · have hne : q.wireName ≠ f.wireName := fun heq =>
          wireName_notMem_of_mem_firstOfEachName h (heq ▸ List.mem_cons_self)
        rw [List.find?_cons_of_neg (by simpa using hne)]
        exact ih h

/-! ## Fields as they are declared

A field is what a schema has under a name, converted, with two marks: whether it is
required, and whether it is inherited. The first is set where the property is declared and
nowhere else. -/

/-- **A field is declared by a schema**: it is what the schema has under its name, up to the
marks. -/
def IsDeclaredBy (k : Converter) (f : Property) (d : Schema) : Prop :=
  ∃ part, (f.wireName, part) ∈ d.properties
    ∧ f = { k.property f.wireName part f.required with inherited := f.inherited }

/-- A property is marked as it is declared. -/
@[simp] theorem property_required (wireName : String) (part : RefOr Schema) (required : Bool) :
    (k.property wireName part required).required = required := rfl

/-- What a schema declares is marked by what it requires. -/
theorem isDeclaredBy_of_mem_ownProperties (h : f ∈ k.ownProperties d) :
    k.IsDeclaredBy f d ∧ (f.required = true ↔ f.wireName ∈ d.required) := by
  obtain ⟨e, he, rfl⟩ := List.mem_map.mp h
  refine ⟨⟨e.2, ?_, ?_⟩, ?_⟩
  · rw [property_wireName]
    exact he
  · rw [property_wireName, property_required]
  · rw [property_wireName, property_required]
    exact List.contains_iff_mem

/-- Marking a field as inherited leaves it declared where it was. -/
theorem IsDeclaredBy.inherit (h : k.IsDeclaredBy f d) :
    k.IsDeclaredBy { f with inherited := true } d := by
  obtain ⟨part, hpart, hfield⟩ := h
  refine ⟨part, hpart, ?_⟩
  generalize k.property f.wireName part f.required = p at hfield
  rw [hfield]

/-- The properties that are not inherited are those that the schemas of this lineage declare. -/
theorem collectedProperties_eq_flatMap (k : Converter) (s : Schema) :
    k.collectedProperties s = (k.components.ownLineage s).flatMap k.ownProperties := by
  have hmembers : ∀ members : List (RefOr Schema), members.flatMap k.memberProperties
      = (members.flatMap (k.components.lineage compositionLevels)).flatMap k.ownProperties := by
    intro members
    rw [List.flatMap_assoc]
    exact List.flatMap_congr (fun m _ => k.contribution_eq_flatMap_lineage compositionLevels m)
  unfold collectedProperties Components.ownLineage
  simp only [List.flatMap_append, hmembers, List.flatMap_singleton]

/-- The inherited ones are those that the lineage of the parent declares. -/
theorem inheritedProperties_eq_flatMap (k : Converter) (s : Schema) :
    k.inheritedProperties s
      = ((k.components.parentLineage s).flatMap k.ownProperties).map
          (fun p => { p with inherited := true }) := by
  unfold inheritedProperties Components.parentLineage Schema.parentPath?
  rw [splitAtParent_parent]
  cases s.allOf.findSome? RefOr.path? with
  | none => rfl
  | some path =>
    rw [← contribution_eq_flatMap_lineage]
    rfl

/-! ## The schema that a field is taken from

Inherited fields are kept as they come, so a name may have several of them. Of the others
there is one for each name, and it must be said which one. -/

/-- **A field of a class is taken from a schema.** -/
inductive IsTakenFrom (k : Converter) (s : Schema) (f : Property) (d : Schema) : Prop
  /-- An inherited field is declared along the lineage of the parent. -/
  | inherited (hmark : f.inherited = true) (hfield : k.IsDeclaredBy f d)
      (hparent : d ∈ k.components.parentLineage s)
  /-- Any other field is declared neither there nor by a schema in front. -/
  | own (hmark : f.inherited = false) (hfield : k.IsDeclaredBy f d)
      (hparent : ∀ t ∈ k.components.parentLineage s, f.wireName ∉ t.propertyNames)
      (before behind : List Schema) (hown : k.components.ownLineage s = before ++ d :: behind)
      (hfirst : ∀ t ∈ before, f.wireName ∉ t.propertyNames)

/-- An inherited field is taken from a schema along the lineage of the parent. -/
theorem exists_of_mem_inheritedProperties (h : f ∈ k.inheritedProperties s) :
    ∃ d, k.IsTakenFrom s f d ∧ (f.required = true ↔ f.wireName ∈ d.required) := by
  rw [inheritedProperties_eq_flatMap] at h
  obtain ⟨p, hp, rfl⟩ := List.mem_map.mp h
  obtain ⟨d, hd, hpd⟩ := List.mem_flatMap.mp hp
  obtain ⟨hfield, hrequired⟩ := isDeclaredBy_of_mem_ownProperties hpd
  exact ⟨d, .inherited rfl hfield.inherit hd, hrequired⟩

/-- A schema that declares nothing under a name has no such property. -/
theorem wireName_notMem_of_find?_eq_none {name : String}
    (h : (k.ownProperties d).find? (·.wireName = name) = none) : name ∉ d.propertyNames := by
  rw [← wireNames_ownProperties k]
  intro hmem
  obtain ⟨p, hp, hname⟩ := List.mem_map.mp hmem
  exact List.find?_eq_none.mp h p hp (decide_eq_true hname)

/-- Any other field is taken from the first schema that declares its name, which is none of
the lineage of the parent. -/
theorem exists_of_mem_own
    (h : f ∈ firstOfEachName ((k.inheritedProperties s).map (·.wireName))
      (k.collectedProperties s)) :
    ∃ d, k.IsTakenFrom s f d ∧ (f.required = true ↔ f.wireName ∈ d.required) := by
  have hmark := k.inherited_of_mem_collectedProperties ((firstOfEachName_sublist _ _).subset h)
  have hparent : ∀ t ∈ k.components.parentLineage s, f.wireName ∉ t.propertyNames := by
    intro t ht hname
    refine wireName_notMem_of_mem_firstOfEachName h ?_
    rw [wireNames_inheritedProperties]
    exact List.mem_flatMap.mpr ⟨t, ht, hname⟩
  -- The first property of the name stands with the first schema that declares it.
  have hfind := find?_of_mem_firstOfEachName h
  rw [collectedProperties_eq_flatMap, List.find?_flatMap] at hfind
  obtain ⟨before, d, behind, hown, hd, hbefore⟩ := List.findSome?_eq_some_iff.mp hfind
  obtain ⟨hfield, hrequired⟩ := isDeclaredBy_of_mem_ownProperties (List.mem_of_find?_eq_some hd)
  exact ⟨d, .own hmark hfield hparent before behind hown
    (fun t ht => wireName_notMem_of_find?_eq_none (hbefore t ht)), hrequired⟩

/-- **A field is required exactly if the schema that it is taken from requires it.** So what
the schema of a class or a member of its `allOf` requires counts for the fields that are
taken from this schema, and for no others. The cases are those of `Converter.IsTakenFrom`; a
model that is no class has no fields.

No other schema has a say: the mark is set where the property is declared, and what is done
later selects from properties or marks them as inherited. -/
theorem model_required_iff (k : Converter) (name : String) (s : Schema) :
    ∀ f ∈ (k.model name s).views.all,
      ∃ d, k.IsTakenFrom s f d ∧ (f.required = true ↔ f.wireName ∈ d.required) := by
  intro f hf
  rw [model_views] at hf
  split_ifs at hf
  · rcases List.mem_append.mp hf with hf | hf
    · exact exists_of_mem_inheritedProperties hf
    · exact exists_of_mem_own hf
  · cases hf

/-- A converter that knows a class with a required field and one with an optional field. -/
def requiringConverter : Converter where
  components :=
    { schemas := .ofEntries
        [("Base", .inline { properties := [("id", .inline (.ofType "string"))]
                            required := ["id"] }),
         ("Named", .inline { properties := [("name", .inline (.ofType "string"))] }),
         ("Pet", .inline { allOf := [.ref "#/components/schemas/Named"], required := ["name"] })] }
  types := .standard
  style := {}

/-- A class with a parent and two members that are declared in place, which both declare
`name`. Of the four fields all are required but `size`. -/
theorem model_required_iff_of_members :
    ∃ s : Schema, s.allOf.length = 3 ∧ s.required = ["size", "kind"]
      ∧ (requiringConverter.model "Cat" s).views.all.map (fun f => (f.wireName, f.required))
        = [("id", true), ("name", true), ("size", false), ("kind", true)]
      ∧ ∀ f ∈ (requiringConverter.model "Cat" s).views.all,
        ∃ d, requiringConverter.IsTakenFrom s f d ∧ (f.required = true ↔ f.wireName ∈ d.required) :=
  -- The name is that of the first inline member, which requires it; the size is only required by
  -- the schema itself, which does not declare it.
  ⟨{ allOf := [.ref "#/components/schemas/Base",
       .inline { properties := [("name", .inline (.ofType "string"))], required := ["name"] },
       .inline { properties := [("name", .inline (.ofType "string")),
         ("size", .inline (.ofType "integer"))] }]
     properties := [("kind", .inline (.ofType "string"))]
     required := ["size", "kind"] },
   rfl, rfl, by decide +kernel, model_required_iff _ _ _⟩

/-- **What a schema or a member of its `allOf` requires need not be required of the class**: a
field that the parent declares, and does not require, stays optional. -/
theorem not_model_required_of_member :
    ¬ ∀ (k : Converter) (name : String) (s : Schema),
      (name, .inline s) ∈ k.components.schemas.entries → s.allOf ≠ [] →
        ∀ f ∈ (k.model name s).views.all,
          (f.wireName ∈ s.required
            ∨ ∃ m ∈ s.allOf, ∃ t, k.components.resolve m = .ok t ∧ f.wireName ∈ t.required) →
          f.required = true := by
  intro h
  have hpet := h requiringConverter "Pet"
    { allOf := [.ref "#/components/schemas/Named"], required := ["name"] }
    (.tail _ (.tail _ (.head _))) nofun
  have hnot : ¬ ∀ f ∈ (requiringConverter.model "Pet"
      { allOf := [.ref "#/components/schemas/Named"], required := ["name"] }).views.all,
      f.wireName ∈ ["name"] → f.required = true := by
    decide +kernel
  exact hnot (fun f hf hname => hpet f hf (.inl hname))

end Converter

end ClientGen
