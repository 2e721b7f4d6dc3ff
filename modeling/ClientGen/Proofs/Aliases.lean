import ClientGen.Kotlin.Project
import ClientGen.Proofs.ClosedWorld

/-!
# Whether a model and the references to it agree

Whether a schema is another name of a primitive type is decided twice: where a reference
to it is typed (`Schema.isTypeAlias`), and where it becomes a model
(`Converter.model_isAlias_iff`). A model that is an alias gets no file, so references to
it have to be typed by what it renames; any other model has to be referred to by its
class. `Client.Model.IsNamedBy` says so.

The two decisions read the same keywords but one. A reference is typed by the primitive
type only if the schema declares no properties; a model is an alias whether it declares
any or not. So a primitive schema with properties is an alias that references still call
by its class, for which there is no file, and this is the only way in which the two
decisions disagree (`Converter.model_isNamedBy_iff`).
-/

namespace ClientGen

open Client (Model ModelAdjustment)

/-! ## What becomes of an alias

An alias may be marked as written, and then it has a file after all: a type alias. None of
the other adjustments touches what a model renames. -/

namespace Client

/-- **A type names a model**: it is the type that the model renames if the model is an
alias, and its class otherwise. -/
def Model.IsNamedBy (m : Model) (type : String) : Prop :=
  if m.isAlias then m.dataType = some type else type = m.className

namespace Model

variable {m m' : Model}

/-- Flattening leaves alone whether a model is an alias, and of what. -/
theorem flatten?_alias (h : m.flatten? = some m') :
    m'.isAlias = m.isAlias ∧ m'.dataType = m.dataType := by
  obtain ⟨-, rfl⟩ := flatten?_eq_some h
  exact ⟨rfl, rfl⟩

/-- Relaxing leaves alone whether a model is an alias, of what, and how it is written. -/
theorem relax?_alias (h : m.relax? = some m') :
    m'.isAlias = m.isAlias ∧ m'.dataType = m.dataType
      ∧ m'.writtenAsAlias = m.writtenAsAlias := by
  obtain ⟨-, rfl⟩ := relax?_eq_some h
  exact ⟨rfl, rfl, rfl⟩

/-- A model that is marked is written as an alias of what it renames, if it renames
anything, and is no alias unless it was one. -/
theorem alias?_alias {keepsEmpty primitiveAliases : Bool}
    (h : m.alias? keepsEmpty primitiveAliases = some m') :
    (m'.isAlias = true → m.isAlias = true) ∧ m'.writtenAsAlias = true
      ∧ ∀ type, m.dataType = some type → m'.dataType = some type := by
  obtain rfl := alias?_eq_some h
  refine ⟨fun hm => (Bool.and_eq_true_iff.mp hm).1, rfl, fun type ht => ?_⟩
  show m.dataType.orElse _ = some type
  rw [ht]
  rfl

end Model

namespace ModelAdjustment

variable {m : Model}

/-- **An adjusted alias still renames its type**, and is an alias still or is written as a
type alias. Marking is the one step that can end being an alias, and it leaves a mark. -/
theorem apply_of_isAlias (a : ModelAdjustment) (hm : m.isAlias = true) {type : String}
    (ht : m.dataType = some type) :
    (a.apply m).dataType = some type
      ∧ ((a.apply m).isAlias = true ∨ (a.apply m).writtenAsAlias = true) := by
  refine apply_induction (P := fun m' => m'.dataType = some type
    ∧ (m'.isAlias = true ∨ m'.writtenAsAlias = true)) a ?_ ?_ ?_ (fun _ h => h)
  · refine step_induction (P := fun m' => m'.dataType = some type
      ∧ (m'.isAlias = true ∨ m'.writtenAsAlias = true)) a.flattens (fun m' h => ?_)
      ⟨ht, Or.inl hm⟩
    obtain ⟨halias, htype⟩ := Model.flatten?_alias h
    exact ⟨htype.trans ht, Or.inl (halias.trans hm)⟩
  · intro m' m'' h hr
    obtain ⟨halias, htype, hwritten⟩ := Model.relax?_alias hr
    rw [halias, htype, hwritten]
    exact h
  · intro m' m'' h ha
    obtain ⟨-, hwritten, htype⟩ := Model.alias?_alias ha
    exact ⟨htype type h.1, Or.inr hwritten⟩

/-- **No adjustment makes an alias** of a model that is none. -/
theorem isAlias_of_apply {a : ModelAdjustment} (h : (a.apply m).isAlias = true) :
    m.isAlias = true := by
  refine apply_induction (P := fun m' => m'.isAlias = true → m.isAlias = true) a ?_ ?_ ?_
    (fun _ h => h) h
  · exact step_induction (P := fun m' => m'.isAlias = true → m.isAlias = true) a.flattens
      (fun _ hf h => (Model.flatten?_alias hf).1 ▸ h) id
  · exact fun _ _ hm hr h => hm ((Model.relax?_alias hr).1 ▸ h)
  · exact fun _ _ hm ha h => hm ((Model.alias?_alias ha).1 h)

end ModelAdjustment

end Client

/-! ## The two decisions

Both decisions are put in terms of keywords of the schema. That the reference is looked up
first matters little here, since a schema that is defined inline is found under its own
name. -/

namespace Converter

variable {k : Converter} {name : String} {s : Schema}

/-- **A model is an alias if its schema is primitive and lists no values.** A primitive
schema with values becomes an enumeration. -/
theorem model_isAlias_iff :
    (k.model name s).isAlias = true ↔ s.kind = .primitive ∧ s.enumValues = [] := by
  have hclass : ∀ base : Model, (k.classModel base s).isAlias = base.isAlias :=
    fun base => by rw [classModel_eq]
  unfold model
  cases s.kind with
  | primitive =>
    dsimp only
    split_ifs with henum
    · simpa using henum
    · simpa using henum
  | object => simp [hclass]
  | array => simp
  | map => simp
  | composed => simp [hclass]

/-- An alias renames the primitive type of its schema. -/
theorem model_dataType (h : (k.model name s).isAlias = true) :
    (k.model name s).dataType = some (k.types.primitive s) := by
  obtain ⟨hkind, henum⟩ := model_isAlias_iff.mp h
  simp [model, hkind, henum]

/-- **A reference is typed by a primitive type if the model is an alias and its schema
declares no properties.** -/
theorem isTypeAlias_iff :
    s.isTypeAlias = true ↔ (k.model name s).isAlias = true ∧ s.properties = [] := by
  rw [model_isAlias_iff]
  simp [Schema.isTypeAlias]

/-- The type of the reference to a schema that is defined inline. -/
theorem partType_toSchema (hs : (name, .inline s) ∈ k.components.schemas.entries)
    (hname : '/' ∉ name.toList) :
    k.partType (.ref (Reference.toSchema name))
      = if s.isTypeAlias then k.types.primitive s else k.style.model name := by
  rw [partType_ref (Components.schemaAt_toSchema hs), Reference.shortName_toSchema hname]

/-- The reference is typed by the class unless it is typed by the primitive type, and
then only if the two are called the same. -/
theorem partType_toSchema_eq_iff (hs : (name, .inline s) ∈ k.components.schemas.entries)
    (hname : '/' ∉ name.toList) :
    k.partType (.ref (Reference.toSchema name)) = k.style.model name
      ↔ ¬ s.isTypeAlias = true ∨ k.style.model name = k.types.primitive s := by
  rw [partType_toSchema hs hname]
  split_ifs with ha
  · exact ⟨fun h => Or.inr h.symm, fun h => (h.resolve_left (not_not_intro ha)).symm⟩
  · exact ⟨fun _ => Or.inl ha, fun _ => rfl⟩

/-! ## Where they disagree

The disagreement is one conjunct. What follows from it for the generated files needs the
adjustment: an alias without a file is one that has not been marked. -/

/-- A reference names its model exactly if the model is no alias or the schema declares
no properties, or the class is called like the primitive type. -/
theorem isNamedBy_partType_iff (hs : (name, .inline s) ∈ k.components.schemas.entries)
    (hname : '/' ∉ name.toList) :
    (k.model name s).IsNamedBy (k.partType (.ref (Reference.toSchema name)))
      ↔ ((k.model name s).isAlias = true →
          s.properties = [] ∨ k.style.model name = k.types.primitive s) := by
  have halias : s.isTypeAlias = true ↔ (k.model name s).isAlias = true ∧ s.properties = [] :=
    isTypeAlias_iff
  rw [Model.IsNamedBy, partType_toSchema hs hname]
  split_ifs with hm ha ha
  · exact ⟨fun _ _ => Or.inl (halias.mp ha).2, fun _ => model_dataType hm⟩
  · have hps : s.properties ≠ [] := fun hps => ha (halias.mpr ⟨hm, hps⟩)
    rw [model_dataType hm, Option.some.injEq]
    exact ⟨fun h _ => Or.inr h.symm, fun h => ((h hm).resolve_left hps).symm⟩
  · exact absurd (halias.mp ha).1 hm
  · exact ⟨fun _ h => absurd h hm, fun _ => (model_className k name s).symm⟩

/-- The adjusted model of an inline schema has a file unless it is an alias still. -/
theorem mem_writtenModels_iff {client : Client} {a : ModelAdjustment}
    (hmodels : client.models = Conversion.models k a)
    (hs : (name, .inline s) ∈ k.components.schemas.entries) :
    a.apply (k.model name s) ∈ Kotlin.Project.writtenModels client
      ↔ (a.apply (k.model name s)).isAlias = false := by
  have hmem : a.apply (k.model name s) ∈ client.models :=
    hmodels ▸ Conversion.mem_models.mpr ⟨name, s, hs, rfl⟩
  unfold Kotlin.Project.writtenModels
  rw [List.mem_filter, and_iff_right hmem, Bool.not_eq_true']

/-- **A model and the references to it agree** exactly if the model is no alias or its
schema declares no properties. So a model without a file is called by its class exactly
if its schema does declare some, and a model with a file is always called by its class,
unless the file is the type alias of the type that stands in the place of the
reference. A class that is called like the primitive type is right either way.

The second half reads this for the files of a client. It is stated for every adjustment,
since marking decides whether an alias has a file, and it can do no more than turn an alias
into a type alias. -/
theorem model_isNamedBy_iff (hs : (name, .inline s) ∈ k.components.schemas.entries)
    (hname : '/' ∉ name.toList) :
    ((k.model name s).IsNamedBy (k.partType (.ref (Reference.toSchema name)))
        ↔ ((k.model name s).isAlias = true →
            s.properties = [] ∨ k.style.model name = k.types.primitive s))
      ∧ ∀ (client : Client) (a : ModelAdjustment), client.models = Conversion.models k a →
        (a.apply (k.model name s) ∉ Kotlin.Project.writtenModels client →
          (k.partType (.ref (Reference.toSchema name)) = k.style.model name
            ↔ s.properties ≠ [] ∨ k.style.model name = k.types.primitive s))
        ∧ (a.apply (k.model name s) ∈ Kotlin.Project.writtenModels client →
          k.partType (.ref (Reference.toSchema name)) = k.style.model name
            ∨ (a.apply (k.model name s)).writtenAsAlias = true
              ∧ (a.apply (k.model name s)).dataType
                = some (k.partType (.ref (Reference.toSchema name)))) := by
  have halias : s.isTypeAlias = true ↔ (k.model name s).isAlias = true ∧ s.properties = [] :=
    isTypeAlias_iff
  refine ⟨isNamedBy_partType_iff hs hname, fun client a hmodels => ?_⟩
  rw [mem_writtenModels_iff hmodels hs, partType_toSchema_eq_iff hs hname]
  constructor
  · intro hskipped
    have hm := Client.ModelAdjustment.isAlias_of_apply (Bool.not_eq_false _ ▸ hskipped)
    rw [halias, not_and, imp_iff_right hm]
  · intro hwritten
    by_cases ha : s.isTypeAlias = true
    · -- The reference has the primitive type, which the model renames.
      obtain ⟨hm, -⟩ := halias.mp ha
      obtain ⟨htype, hstill⟩ := a.apply_of_isAlias hm (model_dataType hm)
      rw [partType_toSchema hs hname, if_pos ha]
      refine Or.inr ⟨hstill.resolve_left (fun h => ?_), htype⟩
      rw [hwritten] at h
      cases h
    · exact Or.inl (Or.inl ha)

/-- A converter over one schema, with the types and names that no option changes. -/
def overOne (name : String) (s : Schema) : Converter where
  components := { schemas := .ofEntries [(name, .inline s)] }
  types := .standard
  style := {}

/-- Another name of a primitive type. -/
def petId : Schema := { Schema.ofType "string" with format := some "uuid" }

/-- Another name of a primitive type, to which references have this type. -/
theorem model_isNamedBy_of_petId :
    ("PetId", .inline petId) ∈ (overOne "PetId" petId).components.schemas.entries
      ∧ '/' ∉ "PetId".toList
      ∧ (overOne "PetId" petId).partType (.ref (Reference.toSchema "PetId")) = "java.util.UUID"
      ∧ ((overOne "PetId" petId).model "PetId" petId).IsNamedBy
          ((overOne "PetId" petId).partType (.ref (Reference.toSchema "PetId"))) := by
  have hs : ("PetId", .inline petId) ∈ (overOne "PetId" petId).components.schemas.entries :=
    List.mem_singleton.mpr rfl
  exact ⟨hs, by decide, by decide, (model_isNamedBy_iff hs (by decide)).1.mpr
    (fun _ => Or.inl rfl)⟩

/-- A primitive schema with a property. -/
def code : Schema :=
  { Schema.ofType "string" with properties := [("a", .inline (.ofType "string"))] }

/-- **The model of a primitive schema with a property is an alias**, but the reference to it
is typed by its class, of which no file is written. -/
theorem model_not_isNamedBy_of_code :
    ("Code", .inline code) ∈ (overOne "Code" code).components.schemas.entries
      ∧ ((overOne "Code" code).model "Code" code).isAlias = true
      ∧ ((overOne "Code" code).model "Code" code).dataType = some "kotlin.String"
      ∧ (overOne "Code" code).partType (.ref (Reference.toSchema "Code")) = "Code"
      ∧ ¬ ((overOne "Code" code).model "Code" code).IsNamedBy
          ((overOne "Code" code).partType (.ref (Reference.toSchema "Code"))) := by
  have htype : (overOne "Code" code).partType (.ref (Reference.toSchema "Code")) = "Code" := by
    decide +kernel
  have hmodel : ((overOne "Code" code).model "Code" code).isAlias = true
      ∧ ((overOne "Code" code).model "Code" code).dataType = some "kotlin.String" := by
    decide +kernel
  refine ⟨List.mem_singleton.mpr rfl, hmodel.1, hmodel.2, htype, ?_⟩
  rw [Model.IsNamedBy, if_pos hmodel.1, hmodel.2, htype]
  decide

end Converter

end ClientGen
