import ClientGen.Proofs.Descent
import ClientGen.Proofs.Fields
import ClientGen.Proofs.Reference
import ClientGen.Proofs.Views

/-!
# Which references the generated code can name

A client has one model for each schema that the document defines inline, and the
class of the model is named for the schema (`Document.toClient_classNames`). A
reference, on the other hand, is named for its own last segment, while what it leads
to is looked up under all that follows the section, through any chain of references.
The two meet at the schemas that are defined inline under a name without a slash: such
a reference is always named as one of the classes (`Document.toClient_knows_of_inline`).

A schema that is defined as a reference has no model of its own, and the name of a
schema with a slash is cut off. Whether the class is there nonetheless, by another
schema's name, is the exact condition (`Document.toClient_knows_iff`).
-/

namespace ClientGen

open Conversion

/-! ## The classes of a client

Preparing the components changes schemas in place and keeps every name, the converter makes
one model for each inline schema, and no adjustment renames one. So the classes can be told
from the document alone. -/

namespace Client

/-- Flattening does not rename a class. -/
theorem Model.flatten?_className {m m' : Model} (h : m.flatten? = some m') :
    m'.className = m.className := by
  obtain ⟨-, rfl⟩ := flatten?_eq_some h
  rfl

/-- Relaxing does not. -/
theorem Model.relax?_className {m m' : Model} (h : m.relax? = some m') :
    m'.className = m.className := by
  obtain ⟨-, rfl⟩ := relax?_eq_some h
  rfl

/-- Marking an alias does not. -/
theorem Model.alias?_className {m m' : Model} {keepsEmpty primitiveAliases : Bool}
    (h : m.alias? keepsEmpty primitiveAliases = some m') : m'.className = m.className := by
  obtain rfl := alias?_eq_some h
  rfl

/-- No adjustment renames a model. -/
theorem ModelAdjustment.apply_name (a : ModelAdjustment) (m : Model) : (a.apply m).name = m.name :=
  Model.name_of_outline (a.apply_outline m)

/-- No adjustment renames a class. -/
theorem ModelAdjustment.apply_className (a : ModelAdjustment) (m : Model) :
    (a.apply m).className = m.className := by
  refine apply_induction (P := fun m' => m'.className = m.className) a ?_ ?_ ?_ ?_
  · exact step_induction (P := fun m' => m'.className = m.className) a.flattens
      (fun _ => Model.flatten?_className) rfl
  · exact fun _ _ h hr => (Model.relax?_className hr).trans h
  · exact fun _ _ h ha => (Model.alias?_className ha).trans h
  · exact fun _ h => h

end Client

/-- A class is named for its schema, whatever kind of model it is: every kind fills in the
same model, in which the class name is set already. -/
theorem Converter.model_className (k : Converter) (name : String) (s : Schema) :
    (k.model name s).className = k.style.model name := by
  have hclass : ∀ base : Client.Model, (k.classModel base s).className = base.className :=
    fun base => by rw [classModel_eq]
  unfold model
  cases s.kind with
  | primitive =>
    dsimp only
    split_ifs <;> rfl
  | object => exact hclass _
  | array => rfl
  | map => rfl
  | composed => exact hclass _

/-- A model keeps the name of its schema. -/
theorem Converter.model_name (k : Converter) (name : String) (s : Schema) :
    (k.model name s).name = name := by
  show (k.model name s).outline.name = name
  rw [model_outline]
  split_ifs <;> rfl

/-- The names of the schemas that are defined inline, in their order. -/
def Components.inlineNames (c : Components) : List String :=
  c.schemas.entries.filterMap (fun e => e.2.inline?.map (fun _ => e.1))

/-- The schemas that are defined inline have distinct names, as all schemas have. -/
theorem Components.nodup_inlineNames (c : Components) : c.inlineNames.Nodup := by
  refine List.Nodup.sublist ?_ c.schemas.distinct
  unfold inlineNames Entries.keys
  induction c.schemas.entries with
  | nil => exact .slnil
  | cons e es ih =>
    obtain ⟨name, part⟩ := e
    cases part with
    | ref path => exact ih.cons name
    | inline s => exact ih.cons_cons name

namespace Conversion

/-- **There is one model for each inline schema**, with its name and the class named for it.
A schema that is a reference gives no model, whatever it leads to. -/
theorem models_names (k : Converter) (adjustment : Client.ModelAdjustment) :
    (models k adjustment).map (fun m => (m.name, m.className))
      = k.components.inlineNames.map (fun name => (name, k.style.model name)) := by
  unfold models Components.inlineNames
  rw [List.map_filterMap, List.map_filterMap]
  refine List.filterMap_congr (fun e _ => ?_)
  rw [Option.map_map, Option.map_map]
  refine congrArg (fun f => e.2.inline?.map f) (funext (fun s => ?_))
  show ((adjustment.apply (k.model e.1 s)).name, (adjustment.apply (k.model e.1 s)).className)
    = (e.1, k.style.model e.1)
  rw [Client.ModelAdjustment.apply_name, Client.ModelAdjustment.apply_className,
    Converter.model_name, Converter.model_className]

/-- Preparation neither adds nor removes an inline schema. -/
theorem preparedComponents_inlineNames {p : Preparation} {c c' : Components}
    (h : preparedComponents p c = .ok c') : c'.inlineNames = c.inlineNames := by
  have hentries := (preparedComponents_entries h).1
  unfold Components.inlineNames
  generalize c.schemas.entries = es at hentries
  generalize c'.schemas.entries = es' at hentries
  induction hentries with
  | nil => rfl
  | cons he _ ih =>
    cases he with
    | ref name path => exact ih
    | inline name hs => exact congrArg (name :: ·) ih

end Conversion

/-- **The models of a client** are those of the schemas that the document defines inline. -/
theorem Document.toClient_names {d : Document} {policy : ConversionPolicy}
    {options : ConversionOptions} {client : Client}
    (h : d.toClient policy options = .ok client) :
    client.models.map (fun m => (m.name, m.className))
      = d.componentsOrNone.inlineNames.map (fun name => (name, options.style.model name)) := by
  obtain ⟨k, -, hk, -, hmodels, -⟩ := toClient_eq_ok h
  obtain ⟨hc, -, hstyle⟩ := converter_eq_ok.mp hk
  rw [hmodels, models_names, preparedComponents_inlineNames hc, hstyle]

/-- A model has the name of a schema that is defined inline, and the class named for it. -/
theorem Document.names_of_mem_models {d : Document} {policy : ConversionPolicy}
    {options : ConversionOptions} {client : Client} (h : d.toClient policy options = .ok client)
    {m : Client.Model} (hm : m ∈ client.models) :
    m.name ∈ d.componentsOrNone.inlineNames ∧ m.className = options.style.model m.name := by
  have hpair : (m.name, m.className) ∈ client.models.map (fun m => (m.name, m.className)) :=
    List.mem_map.mpr ⟨m, hm, rfl⟩
  rw [toClient_names h] at hpair
  obtain ⟨name, hname, heq⟩ := List.mem_map.mp hpair
  obtain ⟨rfl, hclass⟩ := Prod.mk.inj heq
  exact ⟨hname, hclass.symm⟩

/-- **The classes of a client** are those of the schemas that the document defines
inline. -/
theorem Document.toClient_classNames {d : Document} {policy : ConversionPolicy}
    {options : ConversionOptions} {client : Client}
    (h : d.toClient policy options = .ok client) :
    client.models.map (·.className)
      = d.componentsOrNone.inlineNames.map options.style.model := by
  have hclasses := congrArg (List.map Prod.snd) (toClient_names h)
  rwa [List.map_map, List.map_map] at hclasses

/-! ## The types of references

A reference to another name of a primitive type has that primitive type. Any other is called
by a class, and the name of the class comes from the reference, not from what it leads to.
Where the two part, a client may not know the type. -/

/-- **A client knows the type of a reference** to a target: it is the primitive type
of the target, or one of the client's classes. -/
def Client.Knows (client : Client) (k : Converter) (target : Schema) (type : String) : Prop :=
  type = k.types.primitive target ∨ ∃ m ∈ client.models, m.className = type

/-- The type of a reference, once it is known what it leads to. -/
theorem Converter.partType_ref {k : Converter} {path : String} {target : Schema}
    (h : k.components.schemaAt path = .ok target) :
    k.partType (.ref path)
      = if target.isTypeAlias then k.types.primitive target
        else k.style.model (Reference.shortName path) := by
  rw [partType, referenceType, h]

/-- A client knows the type of a reference to another name of a primitive type, and
otherwise that of a reference whose class it knows. -/
theorem Client.knows_partType_iff {client : Client} {k : Converter} {path : String}
    {target : Schema} (h : k.components.schemaAt path = .ok target) :
    client.Knows k target (k.partType (.ref path))
      ↔ target.isTypeAlias = true
        ∨ client.Knows k target (k.style.model (Reference.shortName path)) := by
  rw [Converter.partType_ref h]
  by_cases ha : target.isTypeAlias = true
  · rw [if_pos ha]
    exact ⟨fun _ => Or.inl ha, fun _ => Or.inl rfl⟩
  · rw [if_neg ha]
    exact ⟨Or.inr, fun h => h.resolve_left ha⟩

namespace Document

variable {d : Document} {policy : ConversionPolicy} {options : ConversionOptions}
variable {client : Client}

/-- Whether a client knows a type, in terms of the document: the classes are the names of
the inline schemas in the style of classes. -/
theorem knows_iff (h : d.toClient policy options = .ok client) {k : Converter}
    (hk : d.converter policy options = .ok k) {target : Schema} {type : String} :
    client.Knows k target type
      ↔ type = options.types.primitive target
        ∨ type ∈ d.componentsOrNone.inlineNames.map options.style.model := by
  obtain ⟨-, htypes, -⟩ := converter_eq_ok.mp hk
  rw [← toClient_classNames h, List.mem_map, ← htypes]
  rfl

/-- **A schema defined inline is known by its name**, unless the name has a slash. The
reference then ends in the name of the schema, and the class of the schema is among those of
the client. -/
theorem toClient_knows_of_inline (h : d.toClient policy options = .ok client)
    {name : String} {s : Schema}
    (hs : (name, .inline s) ∈ d.componentsOrNone.schemas.entries) (hname : '/' ∉ name.toList) :
    ∃ k target, d.converter policy options = .ok k
      ∧ k.components.schemaAt (Reference.toSchema name) = .ok target
      ∧ client.Knows k target (k.partType (.ref (Reference.toSchema name))) := by
  obtain ⟨k, -, hk, -⟩ := toClient_eq_ok h
  obtain ⟨hc, -, hstyle⟩ := converter_eq_ok.mp hk
  obtain ⟨⟨_, part⟩, he, hentry⟩ :=
    exists_of_mem_of_forall₂ (preparedComponents_entries hc).1.flip hs
  cases hentry with
  | @inline _ _ target _ =>
    -- Lookup and naming agree on the name, since it has no slash.
    have htarget := Components.schemaAt_toSchema he
    refine ⟨k, target, hk, htarget, (Client.knows_partType_iff htarget).mpr (Or.inr ?_)⟩
    rw [Reference.shortName_toSchema hname, knows_iff h hk, hstyle]
    exact Or.inr (List.mem_map_of_mem (List.mem_filterMap.mpr ⟨_, hs, rfl⟩))

/-- **Which references to schemas a client knows the types of**: those that lead to
another name of a primitive type, and those whose last segment has the class of a
schema that the document defines inline – or a class called like the primitive type
of the target.

The condition is about names and not about schemas. Two schemas may have one class name, and
the class of one is then known although the reference leads to the other. -/
theorem toClient_knows_iff (h : d.toClient policy options = .ok client) :
    ∃ k, d.converter policy options = .ok k
      ∧ ∀ name target, k.components.schemaAt (Reference.toSchema name) = .ok target →
        (client.Knows k target (k.partType (.ref (Reference.toSchema name)))
          ↔ target.isTypeAlias = true
            ∨ options.style.model (Reference.shortName (Reference.toSchema name))
                = options.types.primitive target
            ∨ options.style.model (Reference.shortName (Reference.toSchema name))
                ∈ d.componentsOrNone.inlineNames.map options.style.model) := by
  obtain ⟨k, -, hk, -⟩ := toClient_eq_ok h
  obtain ⟨-, -, hstyle⟩ := converter_eq_ok.mp hk
  refine ⟨k, hk, fun name target htarget => ?_⟩
  rw [Client.knows_partType_iff htarget, knows_iff h hk, hstyle]

/-- A document with a schema, and another one that is a reference to it. -/
def renamingDocument : Document where
  openapi := "3.0.3"
  info := { title := "Pets", description := none, version := "1" }
  servers := []
  paths := {}
  components := some
    { schemas := .ofEntries
        [("Pet", .inline { Schema.ofType "object" with
            properties := [("name", .inline (.ofType "string"))] }),
         ("PetAlias", .ref "#/components/schemas/Pet")] }

/-- A reference to the schema itself has a type that the client knows. -/
theorem toClient_knows_iff_of_renaming :
    ∃ client k target, renamingDocument.toClient {} {} = .ok client
      ∧ renamingDocument.converter {} {} = .ok k
      ∧ k.components.schemaAt (Reference.toSchema "Pet") = .ok target
      ∧ client.Knows k target (k.partType (.ref (Reference.toSchema "Pet"))) := by
  have hclient : ((renamingDocument.toClient {} {}).toOption).isSome = true := by
    decide +kernel
  have htarget : ((renamingDocument.converter {} {}).toOption.bind
      (fun k => (k.components.schemaAt (Reference.toSchema "Pet")).toOption)).isSome = true := by
    decide +kernel
  obtain ⟨client, h⟩ := Option.isSome_iff_exists.mp hclient
  obtain ⟨target, ht⟩ := Option.isSome_iff_exists.mp htarget
  obtain ⟨k, hk, ht⟩ := Option.bind_eq_some_iff.mp ht
  rw [toOption_eq_some] at h hk ht
  obtain ⟨k', hk', hiff⟩ := toClient_knows_iff h
  obtain rfl : k = k' := Except.ok.inj (hk.symm.trans hk')
  exact ⟨client, k, target, h, hk, ht,
    (hiff "Pet" target ht).mpr (Or.inr (Or.inr (by decide +kernel)))⟩

/-- **The other name of a schema is called by a class that no model has**, although the
reference to it leads to the schema. The chain of references is followed to tell whether it
ends at a primitive type, and is then forgotten. -/
theorem toClient_not_knows_of_renaming :
    ∃ client k target, renamingDocument.toClient {} {} = .ok client
      ∧ renamingDocument.converter {} {} = .ok k
      ∧ k.components.schemaAt (Reference.toSchema "PetAlias") = .ok target
      ∧ ¬ client.Knows k target (k.partType (.ref (Reference.toSchema "PetAlias"))) := by
  have hclient : (renamingDocument.toClient {} {}).toOption.map
      (fun client => client.models.map (·.className)) = some ["Pet"] := by
    decide +kernel
  have htarget : (renamingDocument.converter {} {}).toOption.bind
      (fun k => (k.components.schemaAt (Reference.toSchema "PetAlias")).toOption.map
        (fun target => (k.partType (.ref (Reference.toSchema "PetAlias")),
          k.types.primitive target))) = some ("PetAlias", "kotlin.Any") := by
    decide +kernel
  obtain ⟨client, h, hnames⟩ := Option.map_eq_some_iff.mp hclient
  obtain ⟨k, hk, htarget⟩ := Option.bind_eq_some_iff.mp htarget
  obtain ⟨target, ht, htypes⟩ := Option.map_eq_some_iff.mp htarget
  obtain ⟨htype, hprimitive⟩ := Prod.mk.inj htypes
  refine ⟨client, k, target, toOption_eq_some.mp h, toOption_eq_some.mp hk,
    toOption_eq_some.mp ht, ?_⟩
  rw [htype]
  rintro (hany | ⟨m, hm, hname⟩)
  · rw [hprimitive] at hany
    exact absurd hany (by decide)
  · have hmem : "PetAlias" ∈ client.models.map (·.className) :=
      List.mem_map.mpr ⟨m, hm, hname⟩
    rw [hnames] at hmem
    exact absurd hmem (by decide)

end Document

end ClientGen
