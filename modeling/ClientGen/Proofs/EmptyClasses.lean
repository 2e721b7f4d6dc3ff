import ClientGen.Proofs.Confinement
import ClientGen.Proofs.Profiles
import ClientGen.Proofs.TypeAliases

/-!
# Which variants write classes without properties

A data class needs a property, so a model without any is to be written as a type alias
unless classes without properties are allowed. A variant that declares this setting but does
not mark aliases has nothing to write such a model as but a class: what it does with the
setting is that it retypes a schema that says nothing. This is the variant of entities, and
it writes a class without properties for every array and map, and for every other schema
that declares nothing (`Kotlin.Variant.all_eq_nil_iff_of_isDataClass`).

That a schema declares nothing is said of the document as it is written, although models are
made of the prepared one. A schema that is retyped becomes another name of the type of a
text, and so no class; any other declares what it has declared before.
-/

namespace ClientGen

open Client (Model ModelAdjustment)

/-- **A model is written as a data class**: it is neither an enumeration nor a type alias. -/
def Client.Model.IsDataClass (m : Model) : Prop := m.isEnum = false ∧ m.writtenAsAlias = false

instance (m : Model) : Decidable m.IsDataClass := inferInstanceAs (Decidable (_ ∧ _))

/-- That is what its declaration is. -/
theorem Kotlin.ModelFile.declaration_of_isDataClass (p : Kotlin.Profile) {m : Model}
    (h : m.IsDataClass) : declaration p m = dataClass p m := by
  unfold declaration
  rw [h.1, h.2]
  rfl

/-- **Where aliases are marked, no data class is without properties** unless empty classes
are kept: a model without any is marked, and what is marked is written as a type alias. -/
theorem Document.all_ne_nil_of_isDataClass {d : Document} {policy : ConversionPolicy}
    {options : ConversionOptions} {client : Client} (h : d.toClient policy options = .ok client)
    (hmarks : policy.marksAliases = true) (hoff : options.keepsEmpty = false) {m : Model}
    (hm : m ∈ client.models) (hclass : m.IsDataClass) : m.views.all ≠ [] := by
  obtain ⟨k, -, -, -, hmodels, -⟩ := toClient_eq_ok h
  rw [hmodels] at hm
  obtain ⟨name, s, -, rfl⟩ := Conversion.mem_models.mp hm
  have hmarked :=
    k.isMarkedFor_apply name s (a := Conversion.modelAdjustment policy options) hmarks
  intro hnone
  have hwritten := hmarked.written.mpr (Or.inl ⟨hoff, hnone⟩)
  rw [hclass.2] at hwritten
  cases hwritten

namespace Kotlin.Variant

variable {v : Variant} {run : ResolvedRun} {p : Profile} {d : Document} {client : Client}

/-- Of the variants that let empty classes be allowed, the one for entities does not mark
aliases. -/
theorem marksAliases_iff : ∀ v ∈ all, v.declares Key.emptyClasses = true →
    (v.policy.marksAliases = true ↔ v ≠ entities) := by
  decide +kernel

/-- **Which data classes are without properties** although empty classes are not allowed: those
of the variant of entities that are written for an array or a map, or for a schema that declares
nothing.

The other variants that have the setting mark aliases, and there a class without properties
is not left. For entities the models are those of the converter, up to flags. -/
theorem all_eq_nil_iff_of_isDataClass (hv : v ∈ all)
    (hdeclares : v.declares Key.emptyClasses = true) (hp : v.profile run = .ok p)
    (hoff : p.options.keepsEmpty = false) (h : d.toClient p.policy p.options = .ok client) :
    ∀ m ∈ Project.writtenModels client, m.IsDataClass →
      ∃ s, (m.name, .inline s) ∈ d.componentsOrNone.schemas.entries
        ∧ (m.views.all = []
          ↔ v = entities
            ∧ (s.kind = .composed ∨ s.kind = .object → d.componentsOrNone.DeclaresNothing s)) := by
  intro m hm hclass
  replace hm := (List.mem_filter.mp hm).1
  obtain ⟨s, hs, hnone⟩ := Document.exists_schema_of_mem_models h hm
  refine ⟨s, hs, ?_⟩
  by_cases hentities : v = entities
  · rw [hnone, and_iff_right hentities]
  · obtain ⟨library, -, -, -, -, -, hpolicy, -⟩ := profile_eq_ok hp
    have hmarks : p.policy.marksAliases = true := by
      rw [hpolicy, policyFor_marksAliases]
      exact (marksAliases_iff v hv hdeclares).mpr hentities
    exact iff_of_false (Document.all_ne_nil_of_isDataClass h hmarks hoff hm hclass)
      (fun hand => hentities hand.1)

/-- The schemas of every kind under the variant of entities: all the classes but one are
without properties. -/
theorem all_eq_nil_iff_of_isDataClass_of_shapes :
    entities ∈ all ∧ entities.declares Key.emptyClasses = true
      ∧ ∃ p client, entities.profile plainRun = .ok p ∧ p.options.keepsEmpty = false
        ∧ Document.shapesDocument.toClient p.policy p.options = .ok client
        ∧ ((Project.writtenModels client).filter (·.IsDataClass)).map
            (fun m => (m.className, m.views.all.isEmpty))
          = [("IdsEntity", true), ("LabelsEntity", true), ("PetEntity", false),
            ("BaseEntity", true), ("DogEntity", true)]
        ∧ ∀ m ∈ Project.writtenModels client, m.IsDataClass →
          ∃ s, (m.name, .inline s) ∈ Document.shapesDocument.componentsOrNone.schemas.entries
            ∧ (m.views.all = []
              ↔ entities = entities ∧ (s.kind = .composed ∨ s.kind = .object →
                Document.shapesDocument.componentsOrNone.DeclaresNothing s)) := by
  have hprofile : (entities.profile plainRun).toOption.bind (fun p =>
      (Document.shapesDocument.toClient p.policy p.options).toOption.map (fun client =>
        (p.options.keepsEmpty, ((Project.writtenModels client).filter (·.IsDataClass)).map
          (fun m => (m.className, m.views.all.isEmpty)))))
      = some (false, [("IdsEntity", true), ("LabelsEntity", true), ("PetEntity", false),
          ("BaseEntity", true), ("DogEntity", true)]) := by
    decide +kernel
  obtain ⟨p, hp, hprofile⟩ := Option.bind_eq_some_iff.mp hprofile
  obtain ⟨client, h, hmodels⟩ := Option.map_eq_some_iff.mp hprofile
  obtain ⟨hoff, hclasses⟩ := Prod.mk.inj hmodels
  rw [toOption_eq_some] at hp h
  have hv : entities ∈ all := by decide +kernel
  have hdeclares : entities.declares Key.emptyClasses = true := by decide +kernel
  exact ⟨hv, hdeclares, p, client, hp, hoff, h, hclasses,
    all_eq_nil_iff_of_isDataClass hv hdeclares hp hoff h⟩

/-- A document with an object schema that declares no properties. -/
def objectDocument : Document where
  openapi := "3.0.3"
  info := { title := "Pets", description := none, version := "1" }
  servers := []
  paths := {}
  components := some { schemas := .ofEntries [("Empty", .inline (.ofType "object"))] }

/-- **An entity without properties is written as a data class** although empty classes are not
allowed. -/
theorem exists_emptyClass_of_entities :
    entities ∈ all ∧ entities.declares Key.emptyClasses = true
      ∧ ∃ p client, entities.profile plainRun = .ok p ∧ p.options.keepsEmpty = false
        ∧ objectDocument.toClient p.policy p.options = .ok client
        ∧ ∃ m ∈ Project.writtenModels client, m.IsDataClass ∧ m.views.all = []
          ∧ ModelFile.declaration p m
            = ["@Entity(tableName = \"Empty\")", "data class EmptyEntity (", ")"] := by
  have hprofile : (entities.profile plainRun).toOption.bind (fun p =>
      (objectDocument.toClient p.policy p.options).toOption.bind (fun client =>
        (Project.writtenModels client).head?.map (fun m =>
          (p.options.keepsEmpty, decide (m.IsDataClass ∧ m.views.all = []),
            ModelFile.declaration p m))))
      = some (false, true,
          ["@Entity(tableName = \"Empty\")", "data class EmptyEntity (", ")"]) := by
    decide +kernel
  obtain ⟨p, hp, hprofile⟩ := Option.bind_eq_some_iff.mp hprofile
  obtain ⟨client, h, hclient⟩ := Option.bind_eq_some_iff.mp hprofile
  obtain ⟨m, hm, hmodel⟩ := Option.map_eq_some_iff.mp hclient
  obtain ⟨hoff, hmodel⟩ := Prod.mk.inj hmodel
  obtain ⟨hempty, hwritten⟩ := Prod.mk.inj hmodel
  obtain ⟨hclass, hnone⟩ := of_decide_eq_true hempty
  exact ⟨by decide +kernel, by decide +kernel, p, client, toOption_eq_some.mp hp, hoff,
    toOption_eq_some.mp h, m, List.mem_of_head? hm, hclass, hnone, hwritten⟩

end Kotlin.Variant

end ClientGen
