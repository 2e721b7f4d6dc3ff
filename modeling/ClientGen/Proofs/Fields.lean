import ClientGen.Proofs.Composition
import ClientGen.Proofs.PreparedReferences
import ClientGen.Proofs.Views

/-!
# The fields of a client do not depend on how it is converted

A policy and options decide which schemas are prepared, how types and classes are called,
and how models are adjusted. What a model reads and writes is not up to them: its `Outline`
– the fields, with their names on the wire, in order, and whether each is required – is that
of the document (`Document.toClient_outlines`). The one thing that a run may do to it is
drop what is required of a model with alternatives (`Outline.relaxed`).

Preparation is the step that could do more: the converter collects the fields of a
composition from schemas that have been prepared, and the kind of a schema that was retyped
is another. But what a prepared schema declares is the same, so its lineage declares the
same fields, and a schema that is retyped has no fields to lose.

Two runs are then compared through the document and not with each other. Each has the
outlines of the document, relaxed or not, and what can differ is what `Outline.relaxed` does
(`Document.toClient_fields_agree`). The converter follows the members of a composition to a
fixed number of levels, and no policy and no option changes that number.
-/

namespace ClientGen

open Client (Property Model ModelAdjustment)
open Conversion Schema

section Lists

variable {α β γ : Type}

/-- Lists with the same images are related by having them. -/
theorem forall₂_of_map_eq_map {f : α → γ} {g : β → γ} {l : List α} {l' : List β}
    (h : l.map f = l'.map g) : List.Forall₂ (fun a b => f a = g b) l l' := by
  rw [← List.forall₂_eq_eq_eq] at h
  exact List.forall₂_map_left_iff.mp (List.forall₂_map_right_iff.mp h)

/-- Two lists that are related to a third are related through it. -/
theorem forall₂_through {r : α → γ → Prop} {r' : β → γ → Prop} {l : List α} {l' : List β}
    {m : List γ} (h : List.Forall₂ r l m) (h' : List.Forall₂ r' l' m) :
    List.Forall₂ (fun a b => ∃ c, r a c ∧ r' b c) l l' := by
  induction h generalizing l' with
  | nil =>
    cases h'
    exact .nil
  | cons hac _ ih =>
    cases h' with
    | cons hbc h' => exact .cons ⟨_, hac, hbc⟩ (ih h')

end Lists

/-! ## Outlines

An outline forgets what a model is called in the generated code and what its types are. It
keeps whether the model has alternatives, since relaxing asks for that. -/

namespace Client

/-- A property as a field: its name on the wire, and whether it is required. -/
def Property.field (p : Property) : String × Bool := (p.wireName, p.required)

/-- **The outline of a model**: what it reads and writes, whatever it is called in the
generated code. -/
structure Outline where
  name : String
  /-- The fields, inherited ones included. -/
  fields : List (String × Bool)
  /-- Whether the model chooses among other types. -/
  hasAlternatives : Bool
deriving DecidableEq, Repr

/-- The outline of a model. -/
def Model.outline (m : Model) : Outline where
  name := m.name
  fields := m.views.all.map Property.field
  hasAlternatives := m.hasAlternatives

/-- **The outline of a model that is relaxed**, if it has alternatives: nothing is required.
An object need not have the fields of all the types that it may be. -/
def Outline.relaxed (relaxes : Bool) (o : Outline) : Outline :=
  if relaxes && o.hasAlternatives then { o with fields := o.fields.map (fun f => (f.1, false)) }
  else o

/-- Relaxing does not rename. -/
@[simp] theorem Outline.relaxed_name (relaxes : Bool) (o : Outline) :
    (o.relaxed relaxes).name = o.name := by
  unfold relaxed
  split_ifs <;> rfl

/-- Nor does it take alternatives away. -/
@[simp] theorem Outline.relaxed_hasAlternatives (relaxes : Bool) (o : Outline) :
    (o.relaxed relaxes).hasAlternatives = o.hasAlternatives := by
  unfold relaxed
  split_ifs <;> rfl

/-- Relaxing keeps every field, and what is required of it unless the model has
alternatives. -/
theorem Outline.relaxed_fields (relaxes : Bool) (o : Outline) :
    (o.relaxed relaxes).fields
      = o.fields.map (fun f => (f.1, f.2 && !(relaxes && o.hasAlternatives))) := by
  unfold relaxed
  split_ifs with h <;> simp [h]

/-! ## What adjustments do to an outline

There are four adjustments. Three of them leave the outline alone: they put inherited fields
beside the others, mark a model as an alias, or escape names in literals. -/

namespace Model

variable {m m' : Model}

/-- Flattening puts all fields into one view. They are the same fields, in the order in
which they were before: inherited ones first. -/
theorem flatten?_outline (h : m.flatten? = some m') : m'.outline = m.outline := by
  obtain ⟨-, rfl⟩ := flatten?_eq_some h
  exact congrArg (Outline.mk m.name · m.hasAlternatives) List.map_map

/-- Relaxing a model relaxes its outline. -/
theorem relax?_outline (h : m.relax? = some m') : m'.outline = m.outline.relaxed true := by
  obtain ⟨halt, rfl⟩ := relax?_eq_some h
  have hrelaxed : m.outline.relaxed true
      = { m.outline with fields := m.outline.fields.map (fun f => (f.1, false)) } :=
    if_pos halt
  have hfields : (m.views.all.map (fun p => { p with required := false })).map Property.field
      = (m.views.all.map Property.field).map (fun f => (f.1, false)) := by
    rw [List.map_map, List.map_map]
    rfl
  rw [hrelaxed]
  exact congrArg (Outline.mk m.name · m.hasAlternatives) hfields

/-- A model that is not relaxed has no alternatives, and the outline of such a one is left
alone either way. -/
theorem outline_relaxed_of_relax?_eq_none (h : m.relax? = none) (relaxes : Bool) :
    m.outline.relaxed relaxes = m.outline := by
  unfold relax? at h
  split_ifs at h with halt
  have halt' : m.outline.hasAlternatives = false := Bool.eq_false_iff.mpr halt
  rw [Outline.relaxed, halt', Bool.and_false]
  rfl

/-- A model that is written as an alias has the fields that it had. -/
theorem alias?_outline {keepsEmpty primitiveAliases : Bool}
    (h : m.alias? keepsEmpty primitiveAliases = some m') : m'.outline = m.outline := by
  obtain rfl := alias?_eq_some h
  rfl

/-- Escaping names in literals touches none of the names on the wire. -/
theorem withLiterals_outline : m.withLiterals.outline = m.outline :=
  congrArg (Outline.mk m.name · m.hasAlternatives) List.map_map

end Model

namespace ModelAdjustment

variable {m : Model}

/-- The step that relaxes, made or not. -/
theorem step_relax?_outline (made : Bool) :
    (step made Model.relax? m).outline = m.outline.relaxed made := by
  unfold step
  split_ifs with hmade
  · rw [hmade]
    cases h : m.relax? with
    | none => exact (Model.outline_relaxed_of_relax?_eq_none h true).symm
    | some m' => exact Model.relax?_outline h
  · rw [Bool.eq_false_iff.mpr hmade]
    rfl

/-- Any other step, made or not. -/
theorem step_outline (made : Bool) {change? : Model → Option Model}
    (h : ∀ m', change? m = some m' → m'.outline = m.outline) :
    (step made change? m).outline = m.outline :=
  step_induction (P := fun m' => m'.outline = m.outline) made h rfl

/-- **Adjustments keep the outline of a model**, except that relaxing relaxes it. -/
theorem apply_outline (a : ModelAdjustment) (m : Model) :
    (a.apply m).outline = m.outline.relaxed a.relaxes :=
  calc (a.apply m).outline
    _ = (step a.marksAliases (Model.alias? a.keepsEmpty a.primitiveAliases)
          (step a.relaxes Model.relax? (step a.flattens Model.flatten? m))).outline :=
      step_outline _ (fun _ h => by cases h; exact Model.withLiterals_outline)
    _ = (step a.relaxes Model.relax? (step a.flattens Model.flatten? m)).outline :=
      step_outline _ (fun _ => Model.alias?_outline)
    _ = (step a.flattens Model.flatten? m).outline.relaxed a.relaxes := step_relax?_outline _
    _ = m.outline.relaxed a.relaxes := by rw [step_outline _ (fun _ => Model.flatten?_outline)]

end ModelAdjustment

end Client

/-! ## What preparation does to an outline

A prepared schema declares what the schema declared (`Schema.DeclaresSame`), with the same
properties and the same names required. What differs is what its properties and its items
are. -/

namespace Schema

variable {s s' : Schema}

/-- The fields that a schema declares itself. -/
def fields (s : Schema) : List (String × Bool) :=
  s.properties.map (fun p => (p.1, s.isRequired p.1))

/-- Schemas that declare the same have the same fields. -/
theorem DeclaresSame.fields (h : s.DeclaresSame s') : s'.fields = s.fields := by
  have hnames : ∀ t : Schema, t.fields
      = (t.properties.map Prod.fst).map (fun name => (name, t.required.contains name)) := by
    intro t
    rw [List.map_map]
    rfl
  rw [hnames, hnames, h.names, h.required]

/-- A schema that says nothing is an object without properties and members. -/
theorem kind_of_shape_empty (h : s.shape = .empty) :
    s.kind = .object ∧ s.isComposed = false ∧ s.properties = [] := by
  unfold shape at h
  split_ifs at h with ha _ hm hc he
  obtain ⟨htype, hps⟩ := Bool.and_eq_true_iff.mp he
  refine ⟨?_, Bool.eq_false_iff.mpr hc, List.isEmpty_iff.mp hps⟩
  unfold kind
  rw [if_neg ha, if_neg hm, if_neg hc]
  unfold isUntyped at htype
  cases hname : s.typeName? with
  | none => rfl
  | some name =>
    rw [hname] at htype
    obtain rfl : name = "" := by simpa using htype
    rfl

/-- A schema without members is primitive once it has the type of a text. -/
theorem kind_setType_string (h : s.isComposed = false) :
    (s.setType "string").kind = .primitive := by
  have harray : (s.setType "string").isArray = false := rfl
  have hmap : (s.setType "string").isMap = false := rfl
  have hcomposed : (s.setType "string").isComposed = false := h
  unfold kind
  rw [harray, hmap, hcomposed]
  rfl

end Schema

/-- **A lineage declares the same fields in prepared components.** -/
theorem Conversion.lineage_fields {p : Preparation} {c c' : Components}
    (h : preparedComponents p c = .ok c') (levels : Nat) (member : RefOr Schema) :
    (c'.lineage levels member).flatMap Schema.fields
      = (c.lineage levels member).flatMap Schema.fields := by
  induction levels generalizing member with
  | zero => rfl
  | succ levels ih =>
    rw [Components.lineage, Components.lineage]
    have hmember := resolve_sameOutcome h member
    generalize c.resolve member = x at hmember
    generalize c'.resolve member = x' at hmember
    cases hmember with
    | error e => rfl
    | @ok s s' hs =>
      simp only [List.flatMap_append, List.flatMap_assoc, List.flatMap_singleton]
      rw [hs.allOf, hs.fields, List.flatMap_congr (fun m _ => ih m)]

namespace Converter

/-- Properties with the same fields have the same names. -/
theorem wireNames_congr {ps ps' : List Property}
    (h : ps'.map Property.field = ps.map Property.field) :
    ps'.map (·.wireName) = ps.map (·.wireName) := by
  have hnames := congrArg (List.map Prod.fst) h
  rw [List.map_map, List.map_map] at hnames
  exact hnames

/-- Of properties with the same fields, properties with the same fields are kept. -/
theorem fields_firstOfEachName {seen : List String} {ps ps' : List Property}
    (h : ps'.map Property.field = ps.map Property.field) :
    (firstOfEachName seen ps').map Property.field
      = (firstOfEachName seen ps).map Property.field := by
  replace h := forall₂_of_map_eq_map h
  induction h generalizing seen with
  | nil => rfl
  | @cons q q' _ _ hq _ ih =>
    have hname : q.wireName = q'.wireName := congrArg Prod.fst hq
    rw [firstOfEachName, firstOfEachName, hname]
    split_ifs
    · exact ih
    · rw [List.map_cons, List.map_cons, hq, ih]

variable {p : Preparation} {k k' : Converter}

/-- The properties that a schema declares itself are its fields. -/
theorem fields_ownProperties (k : Converter) (s : Schema) :
    (k.ownProperties s).map Property.field = s.fields := by
  unfold ownProperties Schema.fields
  rw [List.map_map]
  rfl

/-- What a member of a composition contributes are the fields of its lineage, schema by
schema. -/
theorem fields_contribution (k : Converter) (levels : Nat) (member : RefOr Schema) :
    (k.contribution levels member).map Property.field
      = (k.components.lineage levels member).flatMap Schema.fields := by
  rw [contribution_eq_flatMap_lineage, List.map_flatMap]
  exact List.flatMap_congr (fun s _ => k.fields_ownProperties s)

section Prepared

variable (h : preparedComponents p k.components = .ok k'.components)
include h

/-- A member contributes the same fields. -/
theorem fields_memberProperties (member : RefOr Schema) :
    (k'.memberProperties member).map Property.field
      = (k.memberProperties member).map Property.field := by
  unfold memberProperties
  rw [fields_contribution, fields_contribution, lineage_fields h]

variable {s s' : Schema}

/-- The inherited properties have the same fields: they are contributed by members, and
members contribute the same. -/
theorem fields_inheritedProperties (hs : s.DeclaresSame s') :
    (k'.inheritedProperties s').map Property.field
      = (k.inheritedProperties s).map Property.field := by
  unfold inheritedProperties
  rw [hs.allOf]
  cases (splitAtParent s.allOf).2.1 with
  | none => rfl
  | some parent =>
    show List.map _ (List.map _ _) = List.map _ (List.map _ _)
    rw [List.map_map, List.map_map]
    exact fields_memberProperties h parent

/-- What is not inherited has the same fields: what members and alternatives contribute, and
the properties of the schema itself. -/
theorem fields_collectedProperties (hs : s.DeclaresSame s') :
    (k'.collectedProperties s').map Property.field
      = (k.collectedProperties s).map Property.field := by
  unfold collectedProperties
  rw [hs.allOf, hs.oneOf, hs.anyOf]
  simp only [List.map_append, List.map_flatMap, fields_ownProperties, hs.fields,
    fields_memberProperties h]

/-- **The views have the same fields.** -/
theorem fields_views (hs : s.DeclaresSame s') :
    (k'.views s').all.map Property.field = (k.views s).all.map Property.field := by
  have hin := fields_inheritedProperties h hs
  show (k'.inheritedProperties s' ++ firstOfEachName _ _).map _
    = (k.inheritedProperties s ++ firstOfEachName _ _).map _
  rw [List.map_append, List.map_append, hin, wireNames_congr hin,
    fields_firstOfEachName (fields_collectedProperties h hs)]

end Prepared

/-! ## Outlines of models

Only a composition and an object have fields. The kind of a schema is not changed by its
preparation, except at the root, where a schema that says nothing becomes a text; and such a
schema has no fields as either. -/

/-- The outline of a class. -/
theorem classModel_outline (k : Converter) (base : Model) (s : Schema) :
    (k.classModel base s).outline
      = ⟨base.name, (k.views s).all.map Property.field, !s.oneOf.isEmpty || !s.anyOf.isEmpty⟩ := by
  rw [classModel_eq, Model.outline, Model.hasAlternatives, List.isEmpty_map, List.isEmpty_map]

/-- **The outline of a model**: the fields of its views, if it is a class, and none
otherwise. -/
theorem model_outline (k : Converter) (name : String) (s : Schema) :
    (k.model name s).outline
      = if s.kind = .composed ∨ s.kind = .object then
          ⟨name, (k.views s).all.map Property.field, !s.oneOf.isEmpty || !s.anyOf.isEmpty⟩
        else ⟨name, [], false⟩ := by
  unfold model
  cases s.kind with
  | primitive =>
    dsimp only
    split <;> rfl
  | object => exact k.classModel_outline _ s
  | array => rfl
  | map => rfl
  | composed => exact k.classModel_outline _ s

/-- **A schema that says nothing is a class without fields.** -/
theorem model_outline_of_shape_empty (k : Converter) (name : String) {s : Schema}
    (h : s.shape = .empty) : (k.model name s).outline = ⟨name, [], false⟩ := by
  obtain ⟨hkind, hcomposed, hps⟩ := kind_of_shape_empty h
  have hnone : s.allOf = [] ∧ s.oneOf = [] ∧ s.anyOf = [] := by
    simpa [isComposed, and_assoc] using hcomposed
  have hviews : (k.views s).all = [] := by
    show k.inheritedProperties s ++ firstOfEachName _ (k.collectedProperties s) = []
    unfold inheritedProperties collectedProperties ownProperties
    rw [hnone.1, hnone.2.1, hnone.2.2, hps]
    rfl
  rw [model_outline, if_pos (Or.inr hkind), hviews, hnone.2.1, hnone.2.2]
  rfl

/-- The root has a model of the same outline: where it has another type, neither schema has
any fields. So the one step that changes the kind of a schema is harmless. -/
theorem model_outline_root (k : Converter) (p : Preparation) (name : String) (s : Schema) :
    (k.model name (p.root s)).outline = (k.model name s).outline := by
  refine Preparation.step_induction
    (P := fun s' => (k.model name s').outline = (k.model name s).outline) rfl (fun s' h => ?_)
  unfold retypeEmpty? at h
  split_ifs at h with hempty
  cases h
  rw [model_outline_of_shape_empty k name hempty, model_outline,
    kind_setType_string (kind_of_shape_empty hempty).2.1]
  rfl

/-- **A prepared schema has a model of the same outline.** -/
theorem model_outline_of_prepare? (h : preparedComponents p k.components = .ok k'.components)
    (name : String) {s s' : Schema} (hs : p.prepare? k.components s = some s') :
    (k'.model name s').outline = (k.model name s).outline := by
  have hframe := Preparation.prepare?_sameFrame hs
  rw [← model_outline_root k p name s, model_outline, model_outline, hframe.kind,
    fields_views h hframe.declaresSame, hframe.oneOf, hframe.anyOf]

end Converter

/-! ## Outlines of a client

The models of a client are those of its components, in their order, so the outlines of a
client are a list that can be compared with that of the document. -/

/-- **The models of prepared components have the outlines of the document**, relaxed if
the adjustment relaxes, whatever types and names the two converters have. -/
theorem Conversion.models_outlines {p : Preparation} {k k' : Converter}
    (h : preparedComponents p k.components = .ok k'.components) (a : ModelAdjustment) :
    (models k' a).map Model.outline
      = (models k {}).map (fun m => m.outline.relaxed a.relaxes) := by
  have hentries := (preparedComponents_entries h).1
  unfold models
  generalize k.components.schemas.entries = es at hentries
  generalize k'.components.schemas.entries = es' at hentries
  induction hentries with
  | nil => rfl
  | cons he _ ih =>
    cases he with
    | ref name path => exact ih
    | @inline name s s' hs =>
      refine congrArg₂ List.cons ?_ ih
      show (a.apply (k'.model name s')).outline
        = (ModelAdjustment.apply {} (k.model name s)).outline.relaxed a.relaxes
      rw [ModelAdjustment.apply_outline, Converter.model_outline_of_prepare? h name hs]
      rfl

/-- Whether a run relaxes models with alternatives: both the policy and the options have
to want it. -/
def Conversion.relaxes (policy : ConversionPolicy) (options : ConversionOptions) : Bool :=
  policy.relaxesAlternatives && options.relaxesAlternatives

namespace Document

variable {d : Document} {policy policy' : ConversionPolicy}
  {options options' : ConversionOptions} {client client' : Client}

/-- **The outlines of a document**: those of the models of its components as they stand. -/
def outlines (d : Document) : List Client.Outline :=
  (models { components := d.componentsOrNone, types := .standard, style := {} } {}).map
    Model.outline

/-- **The models of a client have the outlines of the document**, relaxed if the run
relaxes. -/
theorem toClient_outlines (h : d.toClient policy options = .ok client) :
    client.models.map Model.outline
      = d.outlines.map (Client.Outline.relaxed (relaxes policy options)) := by
  obtain ⟨k, -, hk, -, hmodels, -⟩ := toClient_eq_ok h
  obtain ⟨hc, -, -⟩ := converter_eq_ok.mp hk
  rw [hmodels, outlines, List.map_map]
  exact models_outlines (k := ⟨d.componentsOrNone, .standard, {}⟩) hc _

end Document

/-- **Two models agree on their fields**: they have the same name and the same fields in
the same order, and what is required of a field may differ only if `mayDiffer` and both
models have alternatives. -/
structure Client.Model.AgreesOnFields (mayDiffer : Prop) (m m' : Model) : Prop where
  name : m'.name = m.name
  wireNames : m'.views.all.map (·.wireName) = m.views.all.map (·.wireName)
  required : List.Forall₂ (fun q q' => q'.required ≠ q.required →
    mayDiffer ∧ m.hasAlternatives = true ∧ m'.hasAlternatives = true) m.views.all m'.views.all

namespace Client.Model

variable {m m' : Model} {o : Client.Outline} {relaxes relaxes' : Bool}

/-- A model has the name of its outline, relaxed or not. -/
theorem name_of_outline (h : m.outline = o.relaxed relaxes) : m.name = o.name :=
  (congrArg Client.Outline.name h).trans (o.relaxed_name relaxes)

/-- Whether it has alternatives can be read off its outline, relaxed or not. -/
theorem hasAlternatives_of_outline (h : m.outline = o.relaxed relaxes) :
    m.hasAlternatives = o.hasAlternatives :=
  (congrArg Client.Outline.hasAlternatives h).trans (o.relaxed_hasAlternatives relaxes)

/-- Its fields are those of the outline, and required where these are and nothing was
relaxed. -/
theorem fields_of_outline (h : m.outline = o.relaxed relaxes) :
    m.views.all.map Property.field
      = o.fields.map (fun f => (f.1, f.2 && !(relaxes && o.hasAlternatives))) :=
  (congrArg Client.Outline.fields h).trans (o.relaxed_fields relaxes)

/-- Its names on the wire are those of the outline, in the same order. -/
theorem wireNames_of_outline (h : m.outline = o.relaxed relaxes) :
    m.views.all.map (·.wireName) = o.fields.map Prod.fst := by
  have hnames := congrArg (List.map Prod.fst) (fields_of_outline h)
  rw [List.map_map, List.map_map] at hnames
  exact hnames

/-- **Models with the same outline, relaxed or not, agree on their fields**, and entirely
so unless one is relaxed and the other is not. -/
theorem agreesOnFields_of_outline (h : m.outline = o.relaxed relaxes)
    (h' : m'.outline = o.relaxed relaxes') : m.AgreesOnFields (relaxes ≠ relaxes') m' where
  name := (name_of_outline h').trans (name_of_outline h).symm
  wireNames := (wireNames_of_outline h').trans (wireNames_of_outline h).symm
  required := by
    rw [hasAlternatives_of_outline h, hasAlternatives_of_outline h']
    refine (forall₂_through (forall₂_of_map_eq_map (fields_of_outline h))
      (forall₂_of_map_eq_map (fields_of_outline h'))).imp (fun q q' hq hne => ?_)
    -- Both properties stand for one field, whose flag the two runs may have taken away.
    obtain ⟨f, hf, hf'⟩ := hq
    have hreq : q.required = (f.2 && !(relaxes && o.hasAlternatives)) := congrArg Prod.snd hf
    have hreq' : q'.required = (f.2 && !(relaxes' && o.hasAlternatives)) := congrArg Prod.snd hf'
    rw [hreq, hreq'] at hne
    cases ho : o.hasAlternatives with
    | false =>
      rw [ho, Bool.and_false, Bool.and_false] at hne
      exact absurd rfl hne
    | true =>
      refine ⟨?_, rfl, rfl⟩
      rintro rfl
      exact hne rfl

end Client.Model

/-- **No policy and no option adds, drops or reorders a field.** Any two clients of one
document have the same models, in the same order, with the same fields; and what is
required of a field differs only in models with alternatives, and only if exactly one of
the two runs relaxes them.

Both clients are compared with the outlines of the document, that is of the models made from
its components as they stand. Neither preparation nor an adjustment changes more of an
outline than what is required. -/
theorem Document.toClient_fields_agree {d : Document} {policy policy' : ConversionPolicy}
    {options options' : ConversionOptions} {client client' : Client}
    (h : d.toClient policy options = .ok client) (h' : d.toClient policy' options' = .ok client') :
    List.Forall₂ (Client.Model.AgreesOnFields (relaxes policy options ≠ relaxes policy' options'))
      client.models client'.models := by
  refine (forall₂_through (forall₂_of_map_eq_map (toClient_outlines h))
    (forall₂_of_map_eq_map (toClient_outlines h'))).imp (fun m m' hm => ?_)
  obtain ⟨o, ho, ho'⟩ := hm
  exact Client.Model.agreesOnFields_of_outline ho ho'

/-- A document with a class that chooses among others. -/
def choosingDocument : Document where
  openapi := "3.0.3"
  info := { title := "Pets", description := none, version := "1" }
  servers := []
  paths := {}
  components := some
    { schemas := .ofEntries
        [("Cat", .inline { properties := [("name", .inline (.ofType "string"))]
                           required := ["name"] }),
         ("Pet", .inline { oneOf := [.ref "#/components/schemas/Cat"] }),
         ("Note", .inline {})] }

/-- Two runs over the document above, one of which expands, loosens and relaxes: both give
clients, and their models agree on their fields. -/
theorem Document.toClient_fields_agree_of_choosing :
    ∃ client client', choosingDocument.toClient {} {} = .ok client
      ∧ choosingDocument.toClient { expandsItems := true, relaxesAlternatives := true }
          { keepsEmpty := true, relaxesAlternatives := true } = .ok client'
      ∧ client.models.map (·.outline)
        = [⟨"Cat", [("name", true)], false⟩, ⟨"Pet", [("name", true)], true⟩, ⟨"Note", [], false⟩]
      ∧ client'.models.map (·.outline)
        = [⟨"Cat", [("name", true)], false⟩, ⟨"Pet", [("name", false)], true⟩, ⟨"Note", [], false⟩]
      ∧ List.Forall₂ (Client.Model.AgreesOnFields (false ≠ true)) client.models
          client'.models := by
  have hmodels : (choosingDocument.toClient {} {}).toOption.map
      (fun client => client.models.map (·.outline))
      = some [⟨"Cat", [("name", true)], false⟩, ⟨"Pet", [("name", true)], true⟩,
          ⟨"Note", [], false⟩] := by
    decide +kernel
  have hmodels' : (choosingDocument.toClient { expandsItems := true, relaxesAlternatives := true }
      { keepsEmpty := true, relaxesAlternatives := true }).toOption.map
      (fun client => client.models.map (·.outline))
      = some [⟨"Cat", [("name", true)], false⟩, ⟨"Pet", [("name", false)], true⟩,
          ⟨"Note", [], false⟩] := by
    decide +kernel
  obtain ⟨client, h, hclient⟩ := Option.map_eq_some_iff.mp hmodels
  obtain ⟨client', h', hclient'⟩ := Option.map_eq_some_iff.mp hmodels'
  rw [toOption_eq_some] at h h'
  exact ⟨client, client', h, h', hclient, hclient', toClient_fields_agree h h'⟩

end ClientGen
