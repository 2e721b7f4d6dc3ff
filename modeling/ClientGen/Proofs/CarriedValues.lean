import ClientGen.Document.Printer
import ClientGen.Proofs.JsonText

/-!
# The values that a document carries

A document is made of texts and flags, but for the values that its schemas carry: a default,
an example, the entries of an enumeration (`Document.values`). Where these are whole, so is
the JSON form of the document (`Document.keepsWhole`).

A value is whole if all numbers in it are integers. The condition is on the document that
was read and not on the text that it is written as, since this is what a user of the round
trip can see. Everything else that a document is written with is a text or a flag, and those
are whole by themselves, so the proof goes through the structures once and asks at each
field only whether values can stand in it.
-/

namespace ClientGen

/-! ## The values

Collected along the same recursion that writes a schema, so that the two can be taken apart
together. A reference carries nothing: what it leads to is a component, whose values are
counted there. -/

namespace Schema

/-- The values among the facets of a schema. -/
def Facets.values (f : Facets) : List Json :=
  f.defaultValue.toList ++ f.enumValues ++ f.sample.toList

mutual

/-- **The values that a schema carries**: its own, and those of its inline parts. -/
def values : Schema → List Json
  | ⟨f, properties, additional, items, allOf, oneOf, anyOf⟩ =>
    f.values ++ propertiesValues properties ++ additionalValues additional ++ itemsValues items
      ++ membersValues allOf ++ membersValues oneOf ++ membersValues anyOf

/-- The values of a part. A reference carries none. -/
def partValues : RefOr Schema → List Json
  | .ref _ => []
  | .inline s => values s

/-- The values of the properties. -/
def propertiesValues : List (String × RefOr Schema) → List Json
  | [] => []
  | p :: ps => propertyValues p ++ propertiesValues ps

/-- The values of one property. -/
def propertyValues : String × RefOr Schema → List Json
  | (_, part) => partValues part

/-- The values of what an object may hold besides its properties. -/
def additionalValues : Option (Additional Schema) → List Json
  | none => []
  | some (.allowed _) => []
  | some (.schema part) => partValues part

/-- The values of the items of an array. -/
def itemsValues : Option (RefOr Schema) → List Json
  | none => []
  | some part => partValues part

/-- The values of the members of a composition. -/
def membersValues : List (RefOr Schema) → List Json
  | [] => []
  | part :: parts => partValues part ++ membersValues parts

end

end Schema

/-- The values of a definition. A reference carries none. -/
def RefOr.values {α : Type} (values : α → List Json) : RefOr α → List Json
  | .ref _ => []
  | .inline a => values a

/-- The values of the content of one media type. -/
def MediaType.values (m : MediaType) : List Json := m.schema.toList.flatMap Schema.partValues

/-- The values of a parameter. -/
def Parameter.values (p : Parameter) : List Json := p.schema.toList.flatMap Schema.partValues

/-- The values of a request body. -/
def RequestBody.values (b : RequestBody) : List Json := b.content.values.flatMap MediaType.values

/-- The values of a response. -/
def Response.values (r : Response) : List Json := r.content.values.flatMap MediaType.values

/-- The values of an operation. -/
def Operation.values (o : Operation) : List Json :=
  o.parameters.flatMap (RefOr.values Parameter.values)
    ++ o.requestBody.toList.flatMap (RefOr.values RequestBody.values)
    ++ o.responses.values.flatMap (RefOr.values Response.values)

/-- The values of the operations of a path. -/
def PathItem.values (item : PathItem) : List Json :=
  item.parameters.flatMap (RefOr.values Parameter.values)
    ++ item.operations.flatMap (fun o => o.2.values)

/-- The values of the components. -/
def Components.values (c : Components) : List Json :=
  c.schemas.values.flatMap (RefOr.values Schema.values)
    ++ c.parameters.values.flatMap (RefOr.values Parameter.values)
    ++ c.requestBodies.values.flatMap (RefOr.values RequestBody.values)
    ++ c.responses.values.flatMap (RefOr.values Response.values)

/-- **The values that a document carries**: every default, example and entry of an
enumeration in it. -/
def Document.values (d : Document) : List Json :=
  d.paths.values.flatMap PathItem.values ++ d.components.toList.flatMap Components.values

/-! ## Whole fields

The fields of an object are written by three functions: one for a value that may be absent,
one for a list and one for a map that may be empty. What is absent or empty adds no field,
so each of them adds whole fields exactly if what it is given is whole. -/

namespace Json

variable {α : Type} {name : String}

@[simp] theorem isWhole_text (s : String) : (Json.text s).isWhole = true := rfl

@[simp] theorem isWhole_bool (b : Bool) : (Json.bool b).isWhole = true := rfl

/-- A field that may be absent is whole if its value is. -/
@[simp] theorem forall_field? {write : α → Json} {o : Option α} :
    (∀ f ∈ field? name write o, f.2.isWhole = true) ↔ ∀ a ∈ o, (write a).isWhole = true := by
  cases o <;> simp [field?]

/-- The field of a list is whole if the items are. -/
@[simp] theorem forall_listField {items : List Json} :
    (∀ f ∈ listField name items, f.2.isWhole = true) ↔ ∀ j ∈ items, j.isWhole = true := by
  cases items <;> simp [listField]

/-- The field of a map is whole if the entries are. -/
@[simp] theorem forall_mapField {fields : List (String × Json)} :
    (∀ f ∈ mapField name fields, f.2.isWhole = true) ↔ ∀ f ∈ fields, f.2.isWhole = true := by
  cases fields <;> simp [mapField]

/-- Texts are whole, present or not. -/
theorem forall_field?_text {o : Option String} :
    ∀ f ∈ field? name .text o, f.2.isWhole = true := forall_field?.mpr (fun _ _ => rfl)

/-- So are flags. -/
theorem forall_field?_bool {o : Option Bool} :
    ∀ f ∈ field? name .bool o, f.2.isWhole = true := forall_field?.mpr (fun _ _ => rfl)

/-- So are lists of texts, such as the names of the required properties. -/
theorem forall_listField_text {names : List String} :
    ∀ f ∈ listField name (names.map .text), f.2.isWhole = true :=
  forall_listField.mpr (List.forall_mem_map.mpr fun _ _ => rfl)

end Json

/-! ## Schemas

One case for each of the functions that write a schema. They call each other, and so do the
proofs; the values at each node are a concatenation in the order of its fields. -/

namespace Schema

/-- The type is one name or several, and no number either way. -/
theorem isWhole_typeKeyword (keyword : TypeKeyword) : keyword.toJson.isWhole = true := by
  cases keyword with
  | single name => rfl
  | several names => exact Json.isWhole_list.mpr (List.forall_mem_map.mpr fun _ _ => rfl)

mutual

/-- **A schema with whole values is whole.** Its own values are three of its sixteen fields;
the others are texts, flags, or written by the functions below. -/
theorem isWhole_toJson : ∀ s : Schema, (∀ j ∈ values s, j.isWhole = true) →
    (toJson s).isWhole = true
  | ⟨f, properties, additional, items, allOf, oneOf, anyOf⟩, h => by
    simp only [values, Facets.values, List.forall_mem_append] at h
    obtain ⟨⟨⟨⟨⟨⟨⟨⟨hdefault, henum⟩, hsample⟩, hproperties⟩, hadditional⟩, hitems⟩, hallOf⟩,
      honeOf⟩, hanyOf⟩ := h
    simp only [Option.mem_toList] at hdefault hsample
    rw [toJson, Json.isWhole_object]
    simp only [List.forall_mem_append, Json.forall_field?, Json.forall_listField,
      Json.forall_mapField, List.forall_mem_map, isWhole_typeKeyword, Json.isWhole_text,
      Json.isWhole_bool, implies_true, and_true, true_and, id_eq]
    exact ⟨⟨⟨⟨⟨⟨⟨⟨hdefault, isWhole_propertiesJson properties hproperties⟩,
      isWhole_additionalJson additional hadditional⟩, isWhole_itemsJson items hitems⟩,
      isWhole_membersJson allOf hallOf⟩, isWhole_membersJson oneOf honeOf⟩,
      isWhole_membersJson anyOf hanyOf⟩, henum⟩, hsample⟩

/-- A reference is an object with one text, so only an inline part has anything to show. -/
theorem isWhole_partJson : ∀ part : RefOr Schema, (∀ j ∈ partValues part, j.isWhole = true) →
    (partJson part).isWhole = true
  | .ref _, _ => rfl
  | .inline s, h => isWhole_toJson s h

theorem isWhole_propertiesJson : ∀ ps : List (String × RefOr Schema),
    (∀ j ∈ propertiesValues ps, j.isWhole = true) →
      ∀ f ∈ propertiesJson ps, f.2.isWhole = true
  | [], _ => nofun
  | p :: ps, h => by
    rw [propertiesValues, List.forall_mem_append] at h
    rw [propertiesJson, List.forall_mem_cons]
    exact ⟨isWhole_propertyJson p h.1, isWhole_propertiesJson ps h.2⟩

theorem isWhole_propertyJson : ∀ p : String × RefOr Schema,
    (∀ j ∈ propertyValues p, j.isWhole = true) → (propertyJson p).2.isWhole = true
  | (_, part), h => isWhole_partJson part h

/-- What an object may hold besides is a flag, or a part. -/
theorem isWhole_additionalJson : ∀ additional : Option (Additional Schema),
    (∀ j ∈ additionalValues additional, j.isWhole = true) →
      ∀ f ∈ additionalJson additional, f.2.isWhole = true
  | none, _ => nofun
  | some (.allowed _), _ => List.forall_mem_singleton.mpr rfl
  | some (.schema part), h => List.forall_mem_singleton.mpr (isWhole_partJson part h)

theorem isWhole_itemsJson : ∀ items : Option (RefOr Schema),
    (∀ j ∈ itemsValues items, j.isWhole = true) → ∀ f ∈ itemsJson items, f.2.isWhole = true
  | none, _ => nofun
  | some part, h => List.forall_mem_singleton.mpr (isWhole_partJson part h)

/-- The members of a composition are written one by one, and so are their values collected. -/
theorem isWhole_membersJson : ∀ parts : List (RefOr Schema),
    (∀ j ∈ membersValues parts, j.isWhole = true) → ∀ j ∈ membersJson parts, j.isWhole = true
  | [], _ => nofun
  | part :: parts, h => by
    rw [membersValues, List.forall_mem_append] at h
    rw [membersJson, List.forall_mem_cons]
    exact ⟨isWhole_partJson part h.1, isWhole_membersJson parts h.2⟩

end

end Schema

/-! ## Documents

`KeepsWhole` is what each structure of a document has to show. It goes through references,
optional values, lists and maps, so a structure is settled by naming its fields. -/

/-- **What carries only whole values is written as a whole value.** The values are a
parameter, so that the statement can be carried from a definition to a reference, a list or
a map of it. -/
def KeepsWhole {α : Type} (values : α → List Json) (write : α → Json) : Prop :=
  ∀ a, (∀ j ∈ values a, j.isWhole = true) → (write a).isWhole = true

namespace KeepsWhole

variable {α : Type} {values : α → List Json} {write : α → Json} {name : String}

/-- A reference carries no value, and is written as one text. -/
theorem refOr (h : KeepsWhole values write) :
    KeepsWhole (RefOr.values values) (RefOr.toJson write)
  | .ref _, _ => rfl
  | .inline a, ha => h a ha

/-- A structure that may be absent, as a field. -/
theorem field? (h : KeepsWhole values write) {o : Option α}
    (ho : ∀ j ∈ o.toList.flatMap values, j.isWhole = true) :
    ∀ f ∈ Json.field? name write o, f.2.isWhole = true := by
  rw [List.forall_mem_flatMap] at ho
  exact Json.forall_field?.mpr (fun a ha => h a (ho a (Option.mem_toList.mpr ha)))

/-- A list of structures, as a field. -/
theorem listField (h : KeepsWhole values write) {as : List α}
    (has : ∀ j ∈ as.flatMap values, j.isWhole = true) :
    ∀ f ∈ Json.listField name (as.map write), f.2.isWhole = true := by
  rw [List.forall_mem_flatMap] at has
  exact Json.forall_listField.mpr (List.forall_mem_map.mpr (fun a ha => h a (has a ha)))

/-- The entries of a map, in its order. -/
theorem toFields (h : KeepsWhole values write) {m : OrderedMap α}
    (hm : ∀ j ∈ m.values.flatMap values, j.isWhole = true) :
    ∀ f ∈ m.toFields write, f.2.isWhole = true := by
  rw [List.forall_mem_flatMap, OrderedMap.values, List.forall_mem_map] at hm
  exact List.forall_mem_map.mpr (fun e he => h e.2 (hm e he))

/-- A map of structures, as a field. -/
theorem mapField (h : KeepsWhole values write) {m : OrderedMap α}
    (hm : ∀ j ∈ m.values.flatMap values, j.isWhole = true) :
    ∀ f ∈ Json.mapField name (m.toFields write), f.2.isWhole = true :=
  Json.forall_mapField.mpr (h.toFields hm)

end KeepsWhole

/-- The first structure, and the only one that has values of its own. -/
theorem Schema.keepsWhole : KeepsWhole Schema.values Schema.toJson := isWhole_toJson

/-- A schema by reference or inline. -/
theorem Schema.keepsWhole_part : KeepsWhole Schema.partValues (RefOr.toJson Schema.toJson)
  | .ref _, _ => rfl
  | .inline s, h => isWhole_toJson s h

theorem MediaType.keepsWhole : KeepsWhole MediaType.values MediaType.toJson := by
  intro m h
  rw [MediaType.toJson, Json.isWhole_object]
  exact Schema.keepsWhole_part.field? h

theorem Parameter.keepsWhole : KeepsWhole Parameter.values Parameter.toJson := by
  intro p h
  simp only [Parameter.toJson, Json.isWhole_object, List.forall_mem_append]
  exact ⟨⟨⟨by simp, Json.forall_field?_text⟩, by simp⟩, Schema.keepsWhole_part.field? h⟩

theorem RequestBody.keepsWhole : KeepsWhole RequestBody.values RequestBody.toJson := by
  intro b h
  simp only [RequestBody.toJson, Json.isWhole_object, List.forall_mem_append,
    List.forall_mem_cons]
  exact ⟨Json.forall_field?_text, MediaType.keepsWhole.toFields h, rfl, List.forall_mem_nil _⟩

theorem Response.keepsWhole : KeepsWhole Response.values Response.toJson := by
  intro r h
  simp only [Response.toJson, Json.isWhole_object, List.forall_mem_append]
  exact ⟨by simp, MediaType.keepsWhole.mapField h⟩

theorem Operation.keepsWhole : KeepsWhole Operation.values Operation.toJson := by
  intro o h
  simp only [Operation.values, List.forall_mem_append] at h
  obtain ⟨⟨hparameters, hrequestBody⟩, hresponses⟩ := h
  simp only [Operation.toJson, Json.isWhole_object, List.forall_mem_append]
  exact ⟨⟨⟨⟨⟨⟨⟨Json.forall_field?_text, Json.forall_field?_text⟩, Json.forall_field?_text⟩,
    Json.forall_listField_text⟩, Parameter.keepsWhole.refOr.listField hparameters⟩,
    RequestBody.keepsWhole.refOr.field? hrequestBody⟩,
    Response.keepsWhole.refOr.mapField hresponses⟩, Json.forall_field?_bool⟩

/-- The operations of a path are written method by method, and collected as the list of
those that there are. -/
theorem PathItem.keepsWhole : KeepsWhole PathItem.values PathItem.toJson := by
  intro item h
  simp only [PathItem.values, List.forall_mem_append] at h
  obtain ⟨hparameters, hoperations⟩ := h
  rw [PathItem.toJson, Json.isWhole_object, List.forall_mem_append, List.forall_mem_flatMap]
  refine ⟨Parameter.keepsWhole.refOr.listField hparameters, fun method hmethod => ?_⟩
  rw [Json.forall_field?]
  intro o ho
  rw [List.forall_mem_flatMap] at hoperations
  -- The values are collected from the operations that there are; this one is among them.
  refine Operation.keepsWhole o (hoperations (method, o) ?_)
  exact List.mem_filterMap.mpr ⟨method, hmethod, by rw [Option.mem_def.mp ho]; rfl⟩

theorem Components.keepsWhole : KeepsWhole Components.values Components.toJson := by
  intro c h
  simp only [Components.values, List.forall_mem_append] at h
  obtain ⟨⟨⟨hschemas, hparameters⟩, hrequestBodies⟩, hresponses⟩ := h
  simp only [Components.toJson, Json.isWhole_object, List.forall_mem_append]
  exact ⟨⟨⟨Schema.keepsWhole.refOr.mapField hschemas,
    Parameter.keepsWhole.refOr.mapField hparameters⟩,
    RequestBody.keepsWhole.refOr.mapField hrequestBodies⟩,
    Response.keepsWhole.refOr.mapField hresponses⟩

/-- What is said about a document is made of texts and needs no condition. -/
theorem Info.isWhole_toJson (i : Info) : i.toJson.isWhole = true := by
  simp only [Info.toJson, Json.isWhole_object, List.forall_mem_append]
  exact ⟨⟨by simp, Json.forall_field?_text⟩, by simp⟩

/-- So is a server. -/
theorem Server.isWhole_toJson (s : Server) : s.toJson.isWhole = true := by
  simp only [Server.toJson, Json.isWhole_object, List.forall_mem_append]
  exact ⟨by simp, Json.forall_field?_text⟩

/-- **A document whose values are whole is written as a whole value.** What is said about it
and its servers carry none; the rest are its paths and its components. -/
theorem Document.keepsWhole : KeepsWhole Document.values Document.toJson := by
  intro d h
  simp only [Document.values, List.forall_mem_append] at h
  obtain ⟨hpaths, hcomponents⟩ := h
  simp only [Document.toJson, Json.isWhole_object, List.forall_mem_append,
    List.forall_mem_cons]
  exact ⟨⟨⟨⟨rfl, d.info.isWhole_toJson, List.forall_mem_nil _⟩,
    Json.forall_listField.mpr (List.forall_mem_map.mpr fun s _ => s.isWhole_toJson)⟩,
    PathItem.keepsWhole.mapField hpaths⟩, Components.keepsWhole.field? hcomponents⟩

end ClientGen
