import ClientGen.Kotlin.ModelFile
import ClientGen.Proofs.Aliases
import ClientGen.Proofs.Emptiness

/-!
# Which models are written as type aliases

Where a run marks aliases, a model is marked for one of two reasons: it has no properties where
classes without any are not allowed, or it is another name of a primitive type where those are
wanted (`Client.Model.IsAliasFor`). Marking comes behind flattening and relaxing, and asks all seven
views of the model; but neither of the two changes what is asked (`Client.Model.SameMark`), so the
reasons can be read off the model as the converter makes it
(`Client.ModelAdjustment.apply_of_isAliasFor`, `Client.ModelAdjustment.sameMark_apply`).

A type alias has to have a target. A model without properties has one as it leaves the converter:
a data type, or the container type that it extends, which flattening leaves alone since such a
model has no members to inherit from (`Converter.model_hasTarget`).
-/

namespace ClientGen

open Client (Model ModelAdjustment)

namespace Client

/-! ## What is asked of a model when it is marked

The program asks how many entries the seven views have together, and whether the model is an
alias. Views that agree have entries exactly if they have properties, so the first question
is about the properties alone; only then can it be answered for the model as the converter
makes it. -/

/-- The views have no entries at all exactly if they have no properties. -/
theorem Views.Consistent.count_eq_zero_iff {v : Views} (h : v.Consistent) :
    v.count = 0 ↔ v.all = [] := by
  unfold Views.count Views.listed
  rw [List.length_eq_zero_iff, h.required, h.optional, h.readOnly, h.readWrite, h.all]
  constructor
  · intro hnil
    simp only [List.append_eq_nil_iff] at hnil ⊢
    exact ⟨hnil.2, hnil.1.1.1.1.1.1⟩
  · intro hnil
    obtain ⟨hin, hown⟩ := List.append_eq_nil_iff.mp hnil
    rw [hin, hown]
    rfl

namespace Model

/-- **A model is to be written as a type alias**: it has no properties although empty classes are
not kept, or it renames a primitive type and aliases of those are wanted. -/
def IsAliasFor (keepsEmpty primitiveAliases : Bool) (m : Model) : Prop :=
  keepsEmpty = false ∧ m.views.all = [] ∨ primitiveAliases = true ∧ m.isAlias = true

/-- **Two models are marked alike**: they have the same marks and the same target. Flattening
takes a parent away, but not from a model without members to inherit from. -/
structure SameMark (m m' : Model) : Prop where
  isAlias : m'.isAlias = m.isAlias
  isEnum : m'.isEnum = m.isEnum
  writtenAsAlias : m'.writtenAsAlias = m.writtenAsAlias
  dataType : m'.dataType = m.dataType
  allOf : m'.allOf = m.allOf
  parent : m.allOf = [] → m'.parent = m.parent

namespace SameMark

variable {m m' m'' : Model}

/-- A model is marked like itself. -/
theorem refl (m : Model) : m.SameMark m := ⟨rfl, rfl, rfl, rfl, rfl, fun _ => rfl⟩

/-- Models marked alike one after the other. The members to inherit from are the same in all
three, so whatever keeps the parent in the first step keeps it in the second. -/
theorem trans (h : m.SameMark m') (h' : m'.SameMark m'') : m.SameMark m'' where
  isAlias := h'.isAlias.trans h.isAlias
  isEnum := h'.isEnum.trans h.isEnum
  writtenAsAlias := h'.writtenAsAlias.trans h.writtenAsAlias
  dataType := h'.dataType.trans h.dataType
  allOf := h'.allOf.trans h.allOf
  parent := fun hnone => (h'.parent (h.allOf.trans hnone)).trans (h.parent hnone)

/-- Flattening changes no mark. It is the reason for the condition on the parent: it takes
the parent, from models with members to inherit from only. -/
theorem flatten? (h : m.flatten? = some m') : m.SameMark m' := by
  obtain ⟨hall, rfl⟩ := flatten?_eq_some h
  exact ⟨rfl, rfl, rfl, rfl, rfl, fun hnone => absurd hnone hall⟩

/-- Relaxing changes no mark, since it changes the views only. -/
theorem relax? (h : m.relax? = some m') : m.SameMark m' := by
  obtain ⟨-, rfl⟩ := relax?_eq_some h
  exact ⟨rfl, rfl, rfl, rfl, rfl, fun _ => rfl⟩

/-- Nor does escaping the names for literals. -/
theorem withLiterals (m : Model) : m.SameMark m.withLiterals :=
  ⟨rfl, rfl, rfl, rfl, rfl, fun _ => rfl⟩

end SameMark

/-- Whether a model has a target: it has a data type, or a parent that nothing takes away. -/
def HasTarget (m : Model) : Prop :=
  m.dataType.isSome = true ∨ m.allOf = [] ∧ m.parent.isSome = true

/-- A model with a reason is marked. It is given its parent for a type where it has none,
and remains an alias only where those of primitive types are not wanted. -/
theorem alias?_eq_some_of_isAliasFor {m : Model} {keepsEmpty primitiveAliases : Bool}
    (hm : m.views.Consistent) (h : m.IsAliasFor keepsEmpty primitiveAliases) :
    m.alias? keepsEmpty primitiveAliases = some { m with
      writtenAsAlias := true
      dataType := m.dataType.orElse (fun _ => m.parent)
      isAlias := m.isAlias && !primitiveAliases } := by
  unfold alias?
  rw [if_pos]
  rcases h with ⟨rfl, hnone⟩ | ⟨rfl, halias⟩
  · rw [decide_eq_true (hm.count_eq_zero_iff.mpr hnone)]
    rfl
  · rw [halias]
    exact Bool.or_true _

/-- Without a reason it is left alone. -/
theorem alias?_eq_none_of_not_isAliasFor {m : Model} {keepsEmpty primitiveAliases : Bool}
    (hm : m.views.Consistent) (h : ¬ m.IsAliasFor keepsEmpty primitiveAliases) :
    m.alias? keepsEmpty primitiveAliases = none := by
  unfold alias?
  rw [if_neg]
  intro hmarked
  rcases Bool.or_eq_true_iff.mp hmarked with hempty | halias
  · obtain ⟨hkeeps, hcount⟩ := Bool.and_eq_true_iff.mp hempty
    exact h (Or.inl ⟨by simpa using hkeeps,
      hm.count_eq_zero_iff.mp (of_decide_eq_true hcount)⟩)
  · exact h (Or.inr (Bool.and_eq_true_iff.mp halias))

end Model

namespace ModelAdjustment

variable {a : ModelAdjustment} {m : Model}

/-- A model as it is when it comes to be marked. -/
def beforeMarking (a : ModelAdjustment) (m : Model) : Model :=
  step a.relaxes Model.relax? (step a.flattens Model.flatten? m)

/-- The step behind marking changes no mark. -/
theorem sameMark_step_withLiterals (made : Bool) (m : Model) :
    m.SameMark (step made (fun m => some m.withLiterals) m) :=
  step_induction (P := m.SameMark) made (fun _ h => by cases h; exact .withLiterals m) (.refl m)

/-- **Nothing before marking changes a mark.** -/
theorem sameMark_beforeMarking (a : ModelAdjustment) (m : Model) :
    m.SameMark (a.beforeMarking m) := by
  have hflat : m.SameMark (step a.flattens Model.flatten? m) :=
    step_induction (P := m.SameMark) _ (fun _ => .flatten?) (.refl m)
  exact step_induction (P := m.SameMark) _ (fun _ h => hflat.trans (.relax? h)) hflat

/-- The views agree when a model comes to be marked: to mark it is a step of an adjustment
that otherwise only flattens and relaxes. -/
theorem beforeMarking_consistent (a : ModelAdjustment) (hm : m.views.Consistent) :
    (a.beforeMarking m).views.Consistent :=
  apply_consistent { a with marksAliases := false, escapesLiterals := false } hm

/-- The reasons to mark a model are there from the start: flattening turns inherited
properties into own ones, relaxing makes properties optional, and neither leaves a model
without any that had some. -/
theorem isAliasFor_beforeMarking (a : ModelAdjustment) {keepsEmpty primitiveAliases : Bool} :
    (a.beforeMarking m).IsAliasFor keepsEmpty primitiveAliases
      ↔ m.IsAliasFor keepsEmpty primitiveAliases := by
  have hnone : (a.beforeMarking m).views.all = [] ↔ m.views.all = [] :=
    apply_all_eq_nil_iff { a with marksAliases := false, escapesLiterals := false } m
  rw [Model.IsAliasFor, Model.IsAliasFor, hnone, (a.sameMark_beforeMarking m).isAlias]

section Marking

variable (ha : a.marksAliases = true) (hm : m.views.Consistent)
include ha hm

/-- A model without a reason to be marked keeps its marks. -/
theorem sameMark_apply (h : ¬ m.IsAliasFor a.keepsEmpty a.primitiveAliases) :
    m.SameMark (a.apply m) := by
  have hnone := Model.alias?_eq_none_of_not_isAliasFor (a.beforeMarking_consistent hm)
    (mt a.isAliasFor_beforeMarking.mp h)
  have happly : a.apply m
      = step a.escapesLiterals (fun m => some m.withLiterals) (a.beforeMarking m) := by
    unfold apply
    show step _ _ (step a.marksAliases _ (a.beforeMarking m)) = _
    rw [step, step, if_pos ha, hnone]
    rfl
  rw [happly]
  exact (a.sameMark_beforeMarking m).trans (sameMark_step_withLiterals _ _)

/-- **A model with a reason is marked**, and then has a data type if it has a target. Where
the target is the parent it has become the data type, which is why it must not have been
taken away before. -/
theorem apply_of_isAliasFor (h : m.IsAliasFor a.keepsEmpty a.primitiveAliases) :
    (a.apply m).writtenAsAlias = true
      ∧ (a.apply m).isAlias = (m.isAlias && !a.primitiveAliases)
      ∧ (m.HasTarget → (a.apply m).dataType.isSome = true) := by
  have hsome := Model.alias?_eq_some_of_isAliasFor (a.beforeMarking_consistent hm)
    (a.isAliasFor_beforeMarking.mpr h)
  have hbefore := a.sameMark_beforeMarking m
  generalize hm₂ : a.beforeMarking m = m₂ at hsome hbefore
  have happly : a.apply m = step a.escapesLiterals (fun m => some m.withLiterals) { m₂ with
      writtenAsAlias := true
      dataType := m₂.dataType.orElse (fun _ => m₂.parent)
      isAlias := m₂.isAlias && !a.primitiveAliases } := by
    unfold apply
    show step _ _ (step a.marksAliases _ (a.beforeMarking m)) = _
    rw [hm₂, step, step, if_pos ha, hsome]
    rfl
  have hafter := happly ▸ sameMark_step_withLiterals a.escapesLiterals { m₂ with
      writtenAsAlias := true
      dataType := m₂.dataType.orElse (fun _ => m₂.parent)
      isAlias := m₂.isAlias && !a.primitiveAliases }
  refine ⟨hafter.writtenAsAlias, ?_, fun htarget => ?_⟩
  · rw [hafter.isAlias, ← hbefore.isAlias]
  · rw [hafter.dataType, hbefore.dataType]
    rcases htarget with htype | ⟨hnone, hparent⟩
    · obtain ⟨type, htype⟩ := Option.isSome_iff_exists.mp htype
      rw [htype]
      rfl
    · rw [hbefore.parent hnone]
      cases m.dataType with
      | none => exact hparent
      | some type => rfl

end Marking

end ModelAdjustment

end Client

/-! ## What a model renames

The converter gives a target to a model by its kind: containers get the type that they
extend as a parent, primitive types the type that they stand for, and a class the type of
anything where it has no properties (or alternatives). -/

/-- **A model without properties has a target**, and so has another name of a primitive
type. The cases are the kinds of the schema; only a class can be without a target, and then
it has properties. -/
theorem Converter.model_hasTarget {k : Converter} {name : String} {s : Schema}
    (h : (k.model name s).views.all = [] ∨ (k.model name s).isAlias = true) :
    (k.model name s).HasTarget := by
  have hclass : ∀ base : Model, base.isAlias = false →
      ((k.classModel base s).views.all = [] ∨ (k.classModel base s).isAlias = true) →
        (k.classModel base s).HasTarget := by
    intro base hbase hor
    have hnone : (k.classModel base s).views.all = [] := by
      refine hor.resolve_right ?_
      rw [classModel_eq]
      exact Bool.eq_false_iff.mp hbase
    rw [classModel_views] at hnone
    exact Or.inl (by rw [k.classModel_dataType base hnone]; rfl)
  unfold model at h ⊢
  cases hk : s.kind with
  | array => exact Or.inr ⟨rfl, rfl⟩
  | map => exact Or.inr ⟨rfl, rfl⟩
  | primitive =>
    dsimp only
    split <;> exact Or.inl rfl
  | composed =>
    rw [hk] at h
    exact hclass _ rfl h
  | object =>
    rw [hk] at h
    exact hclass _ rfl h

/-- A model leaves the converter unmarked. -/
theorem Converter.model_writtenAsAlias (k : Converter) (name : String) (s : Schema) :
    (k.model name s).writtenAsAlias = false := by
  have hclass : ∀ base : Model, (k.classModel base s).writtenAsAlias = base.writtenAsAlias :=
    fun base => by rw [classModel_eq]
  unfold model
  cases s.kind with
  | primitive =>
    dsimp only
    split <;> rfl
  | object => exact hclass _
  | array => rfl
  | map => rfl
  | composed => exact hclass _

/-! ## The type aliases of a client

The converter, the adjustment and the writer each know a part: which schemas rename a
primitive type, which models are marked, and what is written for a marked one.
`Client.Model.IsMarkedFor` puts the three together, in terms of the schema. -/

/-- **A model is marked as its schema asks for**, where aliases are marked: it is written as a type
alias if it has no properties unless empty classes are kept, or if its schema is another name of a
primitive type and those are wanted. A type alias has a target; and what is still an alias, and so
not written at all, is another name of a primitive type where those are not wanted. -/
structure Client.Model.IsMarkedFor (keepsEmpty primitiveAliases : Bool) (s : Schema) (m : Model) :
    Prop where
  written : m.writtenAsAlias = true
    ↔ keepsEmpty = false ∧ m.views.all = []
      ∨ primitiveAliases = true ∧ s.kind = .primitive ∧ s.enumValues = []
  target : m.writtenAsAlias = true → ∃ type, m.dataType = some type
    ∧ Kotlin.ModelFile.typeAlias m = ["typealias " ++ m.className ++ " = " ++ type]
  still : m.isAlias = true
    ↔ (s.kind = .primitive ∧ s.enumValues = []) ∧ primitiveAliases = false

/-- **An adjustment that marks aliases marks a model as its schema asks for.** The proof
splits on whether there is a reason; either way each of the three fields compares the model
after the adjustment with that before it, and that with the schema. -/
theorem Converter.isMarkedFor_apply (k : Converter) (name : String) (s : Schema)
    {a : ModelAdjustment} (ha : a.marksAliases = true) :
    (a.apply (k.model name s)).IsMarkedFor a.keepsEmpty a.primitiveAliases s := by
  have hconsistent := k.model_consistent name s
  have hschema : s.kind = .primitive ∧ s.enumValues = [] ↔ (k.model name s).isAlias = true :=
    model_isAlias_iff.symm
  by_cases halias : (k.model name s).IsAliasFor a.keepsEmpty a.primitiveAliases
  · obtain ⟨hwritten, hstill, htarget⟩ :=
      ModelAdjustment.apply_of_isAliasFor ha hconsistent halias
    refine ⟨?_, fun _ => ?_, ?_⟩
    · rw [ModelAdjustment.apply_all_eq_nil_iff, hschema]
      exact iff_of_true hwritten halias
    · have hmodel : (k.model name s).HasTarget := model_hasTarget (halias.imp And.right And.right)
      obtain ⟨type, htype⟩ := Option.isSome_iff_exists.mp (htarget hmodel)
      refine ⟨type, htype, ?_⟩
      rw [Kotlin.ModelFile.typeAlias, Kotlin.ModelFile.printedType, htype]
      rfl
    · rw [hstill, Bool.and_eq_true, Bool.not_eq_true', hschema]
  · have hsame := ModelAdjustment.sameMark_apply ha hconsistent halias
    have hunmarked : ¬ (a.apply (k.model name s)).writtenAsAlias = true :=
      Bool.eq_false_iff.mp (hsame.writtenAsAlias.trans (k.model_writtenAsAlias name s))
    refine ⟨?_, fun hwritten => absurd hwritten hunmarked, ?_⟩
    · rw [ModelAdjustment.apply_all_eq_nil_iff, hschema]
      exact iff_of_false hunmarked halias
    · -- An alias is left unmarked only where aliases are not wanted.
      rw [hsame.isAlias, hschema]
      refine ⟨fun hm => ⟨hm, Bool.eq_false_iff.mpr (fun hwants => ?_)⟩, And.left⟩
      exact halias (Or.inr ⟨hwants, hm⟩)

namespace Document

/-- **Which models are written as type aliases** where aliases are marked, and that each of them
has a target: every model is marked as the prepared schema of its name asks for.

It is the prepared schema that is asked, since a preparation may have made a primitive type
of an empty schema. The schemas are those of the converter, which is the same for all
models. -/
theorem toClient_marks {d : Document} {policy : ConversionPolicy} {options : ConversionOptions}
    {client : Client} (hmarks : policy.marksAliases = true)
    (h : d.toClient policy options = .ok client) :
    ∃ k, d.converter policy options = .ok k
      ∧ ∀ m ∈ client.models, ∃ s, (m.name, .inline s) ∈ k.components.schemas.entries
        ∧ m.IsMarkedFor options.keepsEmpty options.primitiveAliases s := by
  obtain ⟨k, -, hk, -, hmodels, -⟩ := toClient_eq_ok h
  refine ⟨k, hk, fun m hm => ?_⟩
  rw [hmodels] at hm
  obtain ⟨name, s, hs, rfl⟩ := Conversion.mem_models.mp hm
  refine ⟨s, ?_, k.isMarkedFor_apply name s (a := Conversion.modelAdjustment policy options) hmarks⟩
  rw [ModelAdjustment.apply_name, Converter.model_name]
  exact hs

/-- A document with a schema of every kind: containers, primitive types with and without values, a
class, and one whose member declares nothing. -/
def shapesDocument : Document where
  openapi := "3.0.3"
  info := { title := "Pets", description := none, version := "1" }
  servers := []
  paths := {}
  components := some
    { schemas := .ofEntries
        [("Ids", .inline { Schema.ofType "array" with items := some (.inline (.ofType "string")) }),
         ("Labels", .inline { Schema.ofType "object" with additional := some (.allowed true) }),
         ("PetId", .inline { Schema.ofType "string" with format := some "uuid" }),
         ("Status", .inline { Schema.ofType "string" with enumValues := [.text "sold"] }),
         ("Pet", .inline { properties := [("name", .inline (.ofType "string"))] }),
         ("Base", .inline (.ofType "object")),
         ("Dog", .inline { allOf := [.ref "#/components/schemas/Base"] })] }

/-- A schema of every kind, where empty classes are not kept and aliases of primitive types
are wanted. All but `Pet` have no properties, and `Dog` inherits none from `Base`, which
declares none. -/
theorem toClient_marks_of_shapes :
    ({ marksAliases := true, flattensModels := true } : ConversionPolicy).marksAliases = true
      ∧ ∃ client k, shapesDocument.toClient { marksAliases := true, flattensModels := true }
            { primitiveAliases := true } = .ok client
        ∧ shapesDocument.converter { marksAliases := true, flattensModels := true }
            { primitiveAliases := true } = .ok k
        ∧ client.models.map (fun m => (m.name, m.writtenAsAlias, m.dataType))
          = [("Ids", true, some "kotlin.Array<kotlin.String>"),
            ("Labels", true, some "kotlin.collections.Map<kotlin.String, kotlin.Any>"),
            ("PetId", true, some "java.util.UUID"), ("Status", true, some "kotlin.String"),
            ("Pet", false, none), ("Base", true, some "kotlin.Any"),
            ("Dog", true, some "kotlin.Any")]
        ∧ ∀ m ∈ client.models, ∃ s, (m.name, .inline s) ∈ k.components.schemas.entries
          ∧ m.IsMarkedFor false true s := by
  have hclient : (shapesDocument.toClient { marksAliases := true, flattensModels := true }
      { primitiveAliases := true }).toOption.map
        (fun client => client.models.map (fun m => (m.name, m.writtenAsAlias, m.dataType)))
      = some [("Ids", true, some "kotlin.Array<kotlin.String>"),
          ("Labels", true, some "kotlin.collections.Map<kotlin.String, kotlin.Any>"),
          ("PetId", true, some "java.util.UUID"), ("Status", true, some "kotlin.String"),
          ("Pet", false, none), ("Base", true, some "kotlin.Any"),
          ("Dog", true, some "kotlin.Any")] := by
    decide +kernel
  obtain ⟨client, h, hmodels⟩ := Option.map_eq_some_iff.mp hclient
  obtain ⟨k, hk, hmarked⟩ := toClient_marks rfl (toOption_eq_some.mp h)
  exact ⟨rfl, client, k, toOption_eq_some.mp h, hk, hmodels, hmarked⟩

end Document

end ClientGen
