import ClientGen.Proofs.Composition
import ClientGen.Proofs.Conversion

/-!
# The views of a model agree

A model holds its properties seven times over, since the templates iterate over one
selection or another. `Views.Consistent` says what each view is in terms of `own` and
`inherited`; it is the invariant of the conversion. A model has it as it leaves the
converter (`Converter.model_consistent`), and each adjustment keeps it, whether it rewrites
the views or only a flag – so any combination of adjustments keeps it
(`ModelAdjustment.apply_consistent`).

There are two ways to keep it. An adjustment that changes which properties are required has
to make the selections anew (`Views.Consistent.map_refresh`). One that leaves the three
flags alone, by which views select, may change every view where it stands
(`Views.Consistent.map`).

Flattening is the one adjustment that removes a view. What it leaves behind is
`Model.IsDetached`, which the later adjustments keep in turn.
-/

namespace ClientGen

namespace Client

/-- **The views agree**: four of them select from the own properties, in order,
`all` is the inherited properties followed by the own ones, and exactly the
inherited ones are marked so. -/
structure Views.Consistent (v : Views) : Prop where
  required : v.required = v.own.filter (·.required)
  optional : v.optional = v.own.filter (fun p => !p.required)
  readOnly : v.readOnly = v.own.filter (·.readOnly)
  readWrite : v.readWrite = v.own.filter (fun p => !p.readOnly)
  all : v.all = v.inherited ++ v.own
  inherited : ∀ p ∈ v.inherited, p.inherited = true
  own : ∀ p ∈ v.own, p.inherited = false

namespace Views

variable {v : Views}

/-- Views without properties agree. -/
theorem consistent_empty : ({} : Views).Consistent where
  required := rfl
  optional := rfl
  readOnly := rfl
  readWrite := rfl
  all := rfl
  inherited := fun _ h => (nomatch h)
  own := fun _ h => (nomatch h)

/-- Refreshed views agree as soon as the own and the inherited properties make
up all of them. -/
theorem consistent_refresh (hall : v.all = v.inherited ++ v.own)
    (hin : ∀ p ∈ v.inherited, p.inherited = true) (hown : ∀ p ∈ v.own, p.inherited = false) :
    v.refresh.Consistent where
  required := rfl
  optional := rfl
  readOnly := rfl
  readWrite := rfl
  all := hall
  inherited := hin
  own := hown

/-- A function that leaves the mark of inheritance alone keeps it on every list. -/
theorem inherited_of_mem_map {f : Property → Property} {b : Bool} {ps : List Property}
    (hf : ∀ p, (f p).inherited = p.inherited) (h : ∀ p ∈ ps, p.inherited = b) :
    ∀ p ∈ ps.map f, p.inherited = b := by
  intro p hp
  obtain ⟨q, hq, rfl⟩ := List.mem_map.mp hp
  rw [hf, h q hq]

/-- Views that are changed throughout agree again once they are refreshed. -/
theorem Consistent.map_refresh {f : Property → Property} (h : v.Consistent)
    (hf : ∀ p, (f p).inherited = p.inherited) : (v.map f).refresh.Consistent := by
  refine consistent_refresh ?_ (inherited_of_mem_map hf h.inherited)
    (inherited_of_mem_map hf h.own)
  show v.all.map f = v.inherited.map f ++ v.own.map f
  rw [h.all, List.map_append]

/-- A selection of the mapped properties is the mapped selection, where the
function leaves alone what is selected by. -/
theorem map_filter_of_comp {f : Property → Property} {q : Property → Bool}
    (hf : ∀ p, q (f p) = q p) (ps : List Property) :
    (ps.filter q).map f = (ps.map f).filter q := by
  rw [List.filter_map]
  refine congrArg (List.map f) (List.filter_congr (fun p _ => ?_))
  exact (hf p).symm

/-- **Views agree after a change to every property** that leaves the three flags
alone, without being refreshed. -/
theorem Consistent.map {f : Property → Property} (h : v.Consistent)
    (hreq : ∀ p, (f p).required = p.required) (hro : ∀ p, (f p).readOnly = p.readOnly)
    (hin : ∀ p, (f p).inherited = p.inherited) : (v.map f).Consistent where
  required := by
    show v.required.map f = (v.own.map f).filter (·.required)
    rw [h.required, map_filter_of_comp hreq]
  optional := by
    show v.optional.map f = (v.own.map f).filter (fun p => !p.required)
    rw [h.optional, map_filter_of_comp (fun p => congrArg Bool.not (hreq p))]
  readOnly := by
    show v.readOnly.map f = (v.own.map f).filter (·.readOnly)
    rw [h.readOnly, map_filter_of_comp hro]
  readWrite := by
    show v.readWrite.map f = (v.own.map f).filter (fun p => !p.readOnly)
    rw [h.readWrite, map_filter_of_comp (fun p => congrArg Bool.not (hro p))]
  all := by
    show v.all.map f = v.inherited.map f ++ v.own.map f
    rw [h.all, List.map_append]
  inherited := inherited_of_mem_map hin h.inherited
  own := inherited_of_mem_map hin h.own

end Views

/-! ## What the adjustments keep

For each adjustment there is a statement of what it does and to which models, and from it
what it keeps. An adjustment that does not apply to a model leaves it as it is, so the
combination needs only `ModelAdjustment.step_induction`. -/

namespace Model

/-- **A model is detached**: it inherits nothing, and has a parent only as the
class of an array or a map. -/
def IsDetached (m : Model) : Prop :=
  m.views.inherited = [] ∧ (m.isArray = false → m.isMap = false → m.parent = none)

variable {m m' : Model}

/-- What flattening does, and to which models. -/
theorem flatten?_eq_some (h : m.flatten? = some m') :
    m.allOf ≠ [] ∧ m' = { m with
      parent := none
      views := Views.refresh { m.views with
        inherited := []
        all := m.views.all.map (fun p => { p with inherited := false })
        own := m.views.all.map (fun p => { p with inherited := false }) } } := by
  unfold flatten? at h
  split_ifs at h with hall
  cases h
  exact ⟨fun hnil => hall (List.isEmpty_iff.mpr hnil), rfl⟩

/-- What relaxing does, and to which models. -/
theorem relax?_eq_some (h : m.relax? = some m') :
    m.hasAlternatives = true
      ∧ m' = { m with views := (m.views.map (fun p => { p with required := false })).refresh } := by
  unfold relax? at h
  split_ifs at h with halt
  cases h
  exact ⟨halt, rfl⟩

/-- What marking an alias does. -/
theorem alias?_eq_some {keepsEmpty primitiveAliases : Bool}
    (h : m.alias? keepsEmpty primitiveAliases = some m') :
    m' = { m with
      writtenAsAlias := true
      dataType := m.dataType.orElse (fun _ => m.parent)
      isAlias := m.isAlias && !primitiveAliases } := by
  unfold alias? at h
  split_ifs at h
  cases h
  rfl

/-- Flattening keeps the views in agreement: it turns all properties into own ones, and
refreshes. -/
theorem flatten?_consistent (h : m.flatten? = some m') : m'.views.Consistent := by
  obtain ⟨-, rfl⟩ := flatten?_eq_some h
  refine Views.consistent_refresh rfl (fun _ hp => (nomatch hp)) (fun p hp => ?_)
  obtain ⟨q, -, rfl⟩ := List.mem_map.mp hp
  rfl

/-- Flattening detaches. It takes any parent there is; an array or a map keeps its own only
because it has no members to inherit from and is never flattened. -/
theorem flatten?_isDetached (h : m.flatten? = some m') : m'.IsDetached := by
  obtain ⟨-, rfl⟩ := flatten?_eq_some h
  exact ⟨rfl, fun _ _ => rfl⟩

/-- Relaxing keeps them so, as it refreshes what it changes. -/
theorem relax?_consistent (hm : m.views.Consistent) (h : m.relax? = some m') :
    m'.views.Consistent := by
  obtain ⟨-, rfl⟩ := relax?_eq_some h
  exact hm.map_refresh (fun _ => rfl)

/-- Relaxing changes neither the parent nor which properties are inherited. -/
theorem relax?_isDetached (hm : m.IsDetached) (h : m.relax? = some m') : m'.IsDetached := by
  obtain ⟨-, rfl⟩ := relax?_eq_some h
  refine ⟨?_, hm.2⟩
  show m.views.inherited.map _ = []
  rw [hm.1]
  rfl

/-- Marking an alias changes no view, and neither the parent nor what it is a
parent of. -/
theorem alias?_views {keepsEmpty primitiveAliases : Bool}
    (h : m.alias? keepsEmpty primitiveAliases = some m') :
    m'.views = m.views ∧ m'.parent = m.parent ∧ m'.isArray = m.isArray ∧ m'.isMap = m.isMap := by
  obtain rfl := alias?_eq_some h
  exact ⟨rfl, rfl, rfl, rfl⟩

/-- Escaping the names for literals keeps the views in agreement without refreshing them. -/
theorem withLiterals_consistent (hm : m.views.Consistent) : m.withLiterals.views.Consistent :=
  hm.map (fun _ => rfl) (fun _ => rfl) (fun _ => rfl)

/-- It brings no parent back. -/
theorem withLiterals_isDetached (hm : m.IsDetached) : m.withLiterals.IsDetached := by
  refine ⟨?_, hm.2⟩
  show m.views.inherited.map _ = []
  rw [hm.1]
  rfl

end Model

namespace ModelAdjustment

variable {m : Model}

/-- What an adjustment makes true, and what holds where it changes nothing, holds
after its step. -/
theorem step_induction {P : Model → Prop} (made : Bool) {change? : Model → Option Model}
    (hsome : ∀ m', change? m = some m' → P m') (hm : P m) : P (step made change? m) := by
  unfold step
  split_ifs
  · cases h : change? m with
    | none => exact hm
    | some m' => exact hsome m' h
  · exact hm

/-- The adjustments behind flattening keep what each of them keeps. -/
theorem apply_induction {P : Model → Prop} (a : ModelAdjustment)
    (hflat : P (step a.flattens Model.flatten? m))
    (hrelax : ∀ m m', P m → m.relax? = some m' → P m')
    (halias : ∀ m m', P m → m.alias? a.keepsEmpty a.primitiveAliases = some m' → P m')
    (hlit : ∀ m : Model, P m → P m.withLiterals) : P (a.apply m) := by
  unfold apply
  have h₂ := step_induction a.relaxes (fun m' => hrelax _ m' hflat) hflat
  have h₃ := step_induction a.marksAliases (fun m' => halias _ m' h₂) h₂
  refine step_induction a.escapesLiterals (fun m' h => ?_) h₃
  cases h
  exact hlit _ h₃

/-- **Every adjustment keeps the views in agreement.** -/
theorem apply_consistent (a : ModelAdjustment) (hm : m.views.Consistent) :
    (a.apply m).views.Consistent := by
  refine apply_induction (P := fun m => m.views.Consistent) a ?_ ?_ ?_ ?_
  · exact step_induction (P := fun m => m.views.Consistent) a.flattens
      (fun _ => Model.flatten?_consistent) hm
  · exact fun _ _ => Model.relax?_consistent
  · intro m m' h ha
    rw [(Model.alias?_views ha).1]
    exact h
  · exact fun _ => Model.withLiterals_consistent

/-- **An adjustment that flattens leaves a detached model**, if a model without members to
inherit from is detached to begin with. Such a model is not flattened at all, so the
assumption is all there is to say about it. -/
theorem apply_isDetached {a : ModelAdjustment} (ha : a.flattens = true)
    (hm : m.allOf = [] → m.IsDetached) : (a.apply m).IsDetached := by
  refine apply_induction (P := Model.IsDetached) a ?_ ?_ ?_ ?_
  · rw [step, if_pos ha]
    cases h : m.flatten? with
    | some m' => exact Model.flatten?_isDetached h
    | none =>
      -- Flattening leaves a model alone only if it has no members to inherit from.
      refine hm ?_
      unfold Model.flatten? at h
      split_ifs at h with hall
      exact List.isEmpty_iff.mp hall
  · exact fun _ _ => Model.relax?_isDetached
  · intro m m' h ha
    obtain ⟨hv, hp, harr, hmap⟩ := Model.alias?_views ha
    rw [Model.IsDetached, hv, hp, harr, hmap]
    exact h
  · exact fun _ => Model.withLiterals_isDetached

end ModelAdjustment

end Client

/-! ## Models as the converter makes them

The converter makes the selections with the same function that refreshes them later. What it
has to see to is that inherited properties are marked as inherited, and own ones are not. -/

namespace Converter

open Client (Model)

variable (k : Converter)

/-- The views as the converter makes them agree. -/
theorem views_consistent (s : Schema) : (k.views s).Consistent := by
  refine Client.Views.consistent_refresh rfl (fun p hp => ?_) (fun p hp => ?_)
  · replace hp : p ∈ k.inheritedProperties s := hp
    unfold inheritedProperties at hp
    split at hp
    · obtain ⟨q, -, rfl⟩ := List.mem_map.mp hp
      rfl
    · cases hp
  · exact k.inherited_of_mem_collectedProperties ((firstOfEachName_sublist _ _).subset hp)

/-- **The views of a model agree as it leaves the converter.** -/
theorem model_consistent (name : String) (s : Schema) :
    (k.model name s).views.Consistent := by
  rw [model_views]
  split_ifs
  · exact k.views_consistent s
  · exact Client.Views.consistent_empty

/-- A schema without references among the members of its `allOf` inherits
nothing. -/
theorem inheritedProperties_of_parentNames {s : Schema} (h : k.parentNames s.allOf = []) :
    k.inheritedProperties s = [] := by
  have hnone : s.allOf.findSome? RefOr.path? = none := by
    refine List.findSome?_eq_none_iff.mpr (fun m hm => ?_)
    have := List.filterMap_eq_nil_iff.mp h m hm
    exact Option.map_eq_none_iff.mp this
  unfold inheritedProperties
  rw [splitAtParent_parent, hnone]
  rfl

/-- A class without members to inherit from is detached. -/
theorem classModel_isDetached {base : Model} {s : Schema}
    (h : (k.classModel base s).allOf = []) : (k.classModel base s).IsDetached := by
  rw [classModel_eq] at h ⊢
  refine ⟨k.inheritedProperties_of_parentNames h, fun _ _ => ?_⟩
  show (k.parentNames s.allOf).head? = none
  rw [show k.parentNames s.allOf = [] from h]
  rfl

/-- **A model without members to inherit from is detached** as it leaves the converter. By
the kinds of schemas: only containers and classes have a parent at all. -/
theorem model_isDetached {name : String} {s : Schema} (h : (k.model name s).allOf = []) :
    (k.model name s).IsDetached := by
  unfold model at h ⊢
  cases hk : s.kind with
  | array => exact ⟨rfl, fun harr => (nomatch harr)⟩
  | map => exact ⟨rfl, fun _ hmap => (nomatch hmap)⟩
  | primitive =>
    dsimp only
    split <;> exact ⟨rfl, fun _ _ => rfl⟩
  | composed =>
    rw [hk] at h
    exact k.classModel_isDetached h
  | object =>
    rw [hk] at h
    exact k.classModel_isDetached h

end Converter

/-! ## Models of a client

Every model of a client is made by the converter and then adjusted by one adjustment, that
of the policy and the options. -/

/-- **The views of every model of a client agree**, whatever the policy and the
options; and where the policy flattens, no model inherits a property or has a
parent, except an array or a map the container type that it extends.

Flattening is asked of the policy and not of the model: where the policy flattens, the
models that have nothing to flatten are detached from the start. -/
theorem Document.toClient_views_consistent {d : Document} {policy : ConversionPolicy}
    {options : ConversionOptions} {client : Client}
    (h : d.toClient policy options = .ok client) :
    ∀ m ∈ client.models, m.views.Consistent
      ∧ (policy.flattensModels = true → m.IsDetached) := by
  obtain ⟨k, ops, -, -, hmodels, -⟩ := toClient_eq_ok h
  intro m hm
  rw [hmodels] at hm
  obtain ⟨name, s, -, rfl⟩ := Conversion.mem_models.mp hm
  refine ⟨Client.ModelAdjustment.apply_consistent _ (k.model_consistent name s), fun hf => ?_⟩
  exact Client.ModelAdjustment.apply_isDetached hf k.model_isDetached

/-- A document with a class that inherits one property and declares another. -/
def inheritingDocument : Document where
  openapi := "3.0.3"
  info := { title := "Pets", description := none, version := "1" }
  servers := []
  paths := {}
  components := some
    { schemas := .ofEntries
        [("Base", .inline { properties := [("id", .inline { Schema.ofType "string" with
            readOnly := some true })] }),
         ("Pet", .inline { properties := [("name", .inline (.ofType "string"))]
                           required := ["name"]
                           allOf := [.ref "#/components/schemas/Base"] })] }

/-- A class with an inherited property, flattened: it holds both properties as its own. -/
theorem Document.toClient_views_consistent_of_inheriting :
    ∃ client, inheritingDocument.toClient { flattensModels := true, escapesLiterals := true } {}
        = .ok client
      ∧ client.models.map (fun m => (m.className, m.views.own.map (·.wireName)))
        = [("Base", ["id"]), ("Pet", ["id", "name"])]
      ∧ ∀ m ∈ client.models, m.views.Consistent ∧ (true = true → m.IsDetached) := by
  have hmodels : (inheritingDocument.toClient
      { flattensModels := true, escapesLiterals := true } {}).toOption.map
        (fun client => client.models.map (fun m => (m.className, m.views.own.map (·.wireName))))
      = some [("Base", ["id"]), ("Pet", ["id", "name"])] := by
    decide +kernel
  obtain ⟨client, h, hclient⟩ := Option.map_eq_some_iff.mp hmodels
  rw [toOption_eq_some] at h
  exact ⟨client, h, hclient, toClient_views_consistent h⟩

end ClientGen
