import ClientGen.Document.Source
import ClientGen.Proofs.CarriedValues
import ClientGen.Proofs.JsonText
import ClientGen.Proofs.ReadNodes
import ClientGen.Proofs.WrittenRecords

/-!
# The round trip of a document

A document that was read from a JSON text, written as JSON and read again is the same
document, every map in its order (`Document.read_compact`). The numbers that it carries must
be integers, for the digits of a floating-point value are not followed here.

What may be left out of a structure, in what order its fields are read and which of them are
always written differs from structure to structure, and so each has two lemmas: the fields
that are written (`toJson_eq`), and that the structure returns (`returns_…`), which takes
its fields one after the other as the reader does.

Three things could break the round trip and do not.

* A definition is never written with a field `$ref`, so where a reference would be allowed
  it is not taken for one (`Schema.referencePath?_toJson` and its like).

* A missing value is never written, and a field with a default is left out only where its
  value is the default. So what is absent from the written text was absent, or was the
  default, in the one that was read.

* The written text is nested no deeper than the one that was read, so the reader's limit is
  kept. This is why the statements speak of a node that was read, and not of any value.

Equality is that of documents. Two texts of one document may differ, in their blanks, in
fields that the reader does not know and in the order of what has a fixed place; the text
that is written has neither blanks nor unknown fields.
-/

namespace ClientGen

/-! ## Schemas

A schema is the one structure that holds parts of its own kind, so its readers take a depth,
and the round trip is an induction on it. Its writers are mutual recursions over the parts.
They are first shown to be the general writers of lists, maps and references, which the
lemmas on written records are about. -/

/-- The type keyword returns, as one name or as a list of names. The two forms do not get in
each other's way: what is written for one name is no list, and what is written for a list is
no name, so the reader takes each for what it was. -/
theorem returns_typeKeyword : Returns TypeKeyword.read? TypeKeyword.toJson := by
  intro n t keyword hfits hread
  unfold TypeKeyword.read? at hread
  cases hname : t.text? with
  | some name =>
    rw [hname] at hread
    cases hread
    exact ⟨rfl, Tree.fits_ofText name, nofun⟩
  | none =>
    rw [hname] at hread
    obtain ⟨names, hnames, rfl⟩ := Option.map_eq_some_iff.mp hread
    obtain ⟨hreads, hfits, -⟩ := returns_text.listOf hfits hnames
    refine ⟨?_, hfits, nofun⟩
    show TypeKeyword.read? (Json.list (names.map .text)).tree = _
    unfold TypeKeyword.read?
    rw [hreads, Json.tree_list]
    rfl

namespace Schema

/-- A part is written as any other reference or definition. The writer of a schema has a
copy of its own of this, because it calls itself there. -/
theorem partJson_eq : partJson = RefOr.toJson toJson := by
  funext part
  cases part <;> rfl

/-- The properties are written as the entries of a map, in their order. -/
theorem propertiesJson_eq (ps : List (String × RefOr Schema)) :
    propertiesJson ps = writtenEntries (RefOr.toJson toJson) ps := by
  induction ps with
  | nil => rfl
  | cons p ps ih =>
    obtain ⟨name, part⟩ := p
    rw [propertiesJson, propertyJson, ih, partJson_eq]
    rfl

/-- The members of a composition are written as a list. -/
theorem membersJson_eq (parts : List (RefOr Schema)) :
    membersJson parts = parts.map (RefOr.toJson toJson) := by
  induction parts with
  | nil => rfl
  | cons part parts ih => rw [membersJson, ih, partJson_eq, List.map_cons]

/-- What an object may hold besides its properties, as JSON. -/
def Additional.toJson : Additional Schema → Json
  | .allowed b => .bool b
  | .schema part => RefOr.toJson Schema.toJson part

/-- What an object may hold besides is one field that may be absent. Both answers, a flag
and a schema, are written under the same name. -/
theorem additionalJson_eq (additional : Option (Additional Schema)) :
    additionalJson additional
      = Json.field? "additionalProperties" Additional.toJson additional := by
  rcases additional with _ | _ | part
  · rfl
  · rfl
  · rw [additionalJson, partJson_eq]
    rfl

/-- The items of an array are one field that may be absent. -/
theorem itemsJson_eq (items : Option (RefOr Schema)) :
    itemsJson items = Json.field? "items" (RefOr.toJson toJson) items := by
  cases items with
  | none => rfl
  | some part =>
    rw [itemsJson, partJson_eq]
    rfl

/-- **A schema is written as its fields.** All of them may be absent, and lists and maps
that are empty are. The values of the document that are carried as they are, a default, the
entries of an enumeration and an example, are written by `id`. -/
theorem toJson_eq (s : Schema) :
    s.toJson = .object (Json.present [
      ("type", s.typeKeyword.map TypeKeyword.toJson),
      ("format", s.format.map .text),
      ("title", s.title.map .text),
      ("description", s.description.map .text),
      ("default", s.defaultValue.map id),
      ("nullable", s.nullable.map .bool),
      ("properties", Json.mapped (writtenEntries (RefOr.toJson toJson) s.properties)),
      ("required", Json.listed (s.required.map .text)),
      ("additionalProperties", s.additional.map Additional.toJson),
      ("items", s.items.map (RefOr.toJson toJson)),
      ("allOf", Json.listed (s.allOf.map (RefOr.toJson toJson))),
      ("oneOf", Json.listed (s.oneOf.map (RefOr.toJson toJson))),
      ("anyOf", Json.listed (s.anyOf.map (RefOr.toJson toJson))),
      ("enum", Json.listed (s.enumValues.map id)),
      ("readOnly", s.readOnly.map .bool),
      ("example", s.sample.map id)]) := by
  obtain ⟨f, properties, additional, items, allOf, oneOf, anyOf⟩ := s
  rw [toJson]
  simp only [Json.present_map, Json.present_listed, Json.present_mapped, Json.present_nil,
    List.append_assoc, List.append_nil, propertiesJson_eq, membersJson_eq, additionalJson_eq,
    itemsJson_eq, List.map_id]

/-- **A schema is not taken for a reference**: among the names of its fields is no `$ref`.
The reader looks for that field first, wherever a part is read. -/
theorem referencePath?_toJson (s : Schema) : referencePath? s.toJson.tree = none := by
  rw [toJson_eq]
  exact referencePath?_present (by simp) (by simp)

/-- What an object may hold besides returns, if the schemas inside do. A flag comes first
for the reader; a schema is written as an object, and a reference too, and neither is a
flag. -/
theorem returns_additional {read : Tree → Option Schema} (h : Returns read toJson) :
    Returns (Additional.read? read) Additional.toJson := by
  intro n t additional hfits hread
  unfold Additional.read? at hread
  cases hallowed : t.bool? with
  | some b =>
    rw [hallowed] at hread
    cases hread
    exact ⟨rfl, Tree.fits_scalar.mpr trivial, nofun⟩
  | none =>
    rw [hallowed] at hread
    obtain ⟨part, hpart, rfl⟩ := Option.map_eq_some_iff.mp hread
    obtain ⟨hreads, hfits, hnull⟩ := h.refOr referencePath?_toJson hfits hpart
    -- What is written here is an object in either case, so the reader does not see a flag.
    have hobject : (RefOr.toJson toJson part).tree.bool? = none := by
      cases part with
      | ref path => rfl
      | inline s =>
        show s.toJson.tree.bool? = none
        rw [toJson_eq, Json.tree_object]
        rfl
    refine ⟨?_, hfits, hnull⟩
    show Additional.read? read (RefOr.toJson toJson part).tree = _
    unfold Additional.read?
    rw [hobject, hreads]
    rfl

/-- **A schema returns**, however deep it is nested.

The depth is that of the reader, which gives up below it. Its parts are read one level less
deep, so the induction is on the depth and not on the schema: the schema that is read is
only known once the reader has succeeded. -/
theorem returns_readWithin? (depth : Nat) : Returns (readWithin? depth) toJson := by
  induction depth with
  | zero => exact nofun
  | succ depth ih =>
    -- The properties, the items and the members are parts, read one level less deep.
    have hpart := ih.refOr referencePath?_toJson
    refine returns_record (fun _ => rfl) toJson_eq (fun _ => rfl) (by decide) ?_
    intro m r s hr h
    obtain ⟨typeKeyword, htype, h⟩ := Option.bind_eq_some_iff.mp h
    obtain ⟨format, hformat, h⟩ := Option.bind_eq_some_iff.mp h
    obtain ⟨title, htitle, h⟩ := Option.bind_eq_some_iff.mp h
    obtain ⟨description, hdescription, h⟩ := Option.bind_eq_some_iff.mp h
    obtain ⟨defaultValue, hdefault, h⟩ := Option.bind_eq_some_iff.mp h
    obtain ⟨nullable, hnullable, h⟩ := Option.bind_eq_some_iff.mp h
    obtain ⟨properties, hproperties, h⟩ := Option.bind_eq_some_iff.mp h
    obtain ⟨required, hrequired, h⟩ := Option.bind_eq_some_iff.mp h
    obtain ⟨additional, hadditional, h⟩ := Option.bind_eq_some_iff.mp h
    obtain ⟨items, hitems, h⟩ := Option.bind_eq_some_iff.mp h
    obtain ⟨allOf, hallOf, h⟩ := Option.bind_eq_some_iff.mp h
    obtain ⟨oneOf, honeOf, h⟩ := Option.bind_eq_some_iff.mp h
    obtain ⟨anyOf, hanyOf, h⟩ := Option.bind_eq_some_iff.mp h
    obtain ⟨enumValues, henum, h⟩ := Option.bind_eq_some_iff.mp h
    obtain ⟨readOnly, hreadOnly, h⟩ := Option.bind_eq_some_iff.mp h
    obtain ⟨sample, hsample, h⟩ := Option.bind_eq_some_iff.mp h
    cases h
    -- The reader keeps the properties as entries with distinct names; making a map of them
    -- again changes nothing.
    have hmap := OrderedMap.entries_ofEntries (OrderedMap.ofEntries properties).distinct
    exact (regains_optional hr returns_typeKeyword htype).bind <|
      (regains_optional hr returns_text hformat).bind <|
      (regains_optional hr returns_text htitle).bind <|
      (regains_optional hr returns_text hdescription).bind <|
      (regains_optional hr returns_json hdefault).bind <|
      (regains_optional hr returns_bool hnullable).bind <|
      (regains_entriesOf hr hpart hproperties).bind <|
      (regains_listOf hr returns_text hrequired).bind <|
      (regains_optional hr (returns_additional ih) hadditional).bind <|
      (regains_optional hr hpart hitems).bind <|
      (regains_listOf hr hpart hallOf).bind <|
      (regains_listOf hr hpart honeOf).bind <|
      (regains_listOf hr hpart hanyOf).bind <|
      (regains_listOf hr returns_json henum).bind <|
      (regains_optional hr returns_bool hreadOnly).bind <|
      (regains_optional hr returns_json hsample).bind <|
      .done (by rw [hmap]; rfl)

/-- A part of a schema returns, at the depth that the reader of a document starts with. -/
theorem returns_readPart? : Returns readPart? (RefOr.toJson toJson) :=
  (returns_readWithin? readingDepth).refOr referencePath?_toJson

end Schema

/-! ## The structures of a document

From the leaves up, so that every structure finds the ones that it holds already settled.
The order of the fields in `toJson_eq` is the order in which they are written, and it is
also the order in which the reader asks for them: the readers are sequences, and each field
that is regained is handed to what comes after it. -/

/-- The title and the version are required, so they are written even if they are empty; only
the description may be absent. -/
theorem Info.toJson_eq (i : Info) :
    i.toJson = .object (Json.present [
      ("title", some (.text i.title)),
      ("description", i.description.map .text),
      ("version", some (.text i.version))]) := by
  simp [Info.toJson]

/-- **What is said about a document returns.** -/
theorem returns_info : Returns Info.read? Info.toJson := by
  refine returns_record (fun _ => rfl) Info.toJson_eq (fun _ => rfl) (by decide) ?_
  intro m r i hr h
  obtain ⟨title, htitle, h⟩ := Option.bind_eq_some_iff.mp h
  obtain ⟨description, hdescription, h⟩ := Option.bind_eq_some_iff.mp h
  obtain ⟨version, hversion, h⟩ := Option.bind_eq_some_iff.mp h
  cases h
  exact (regains_required hr returns_text htitle).bind <|
    (regains_optional hr returns_text hdescription).bind <|
    (regains_required hr returns_text hversion).bind <|
    .done rfl

/-- A server is its address, and a description if there is one. -/
theorem Server.toJson_eq (s : Server) :
    s.toJson = .object (Json.present [
      ("url", some (.text s.url)),
      ("description", s.description.map .text)]) := by
  simp [Server.toJson]

/-- A server returns. -/
theorem returns_server : Returns Server.read? Server.toJson := by
  refine returns_record (fun _ => rfl) Server.toJson_eq (fun _ => rfl) (by decide) ?_
  intro m r s hr h
  obtain ⟨url, hurl, h⟩ := Option.bind_eq_some_iff.mp h
  obtain ⟨description, hdescription, h⟩ := Option.bind_eq_some_iff.mp h
  cases h
  exact (regains_required hr returns_text hurl).bind <|
    (regains_optional hr returns_text hdescription).bind <|
    .done rfl

/-- A media type has at most the schema of its content. -/
theorem MediaType.toJson_eq (m : MediaType) :
    m.toJson = .object (Json.present [
      ("schema", m.schema.map (RefOr.toJson Schema.toJson))]) := by
  simp [MediaType.toJson]

/-- A media type returns. It is the first structure that holds a schema. -/
theorem returns_mediaType : Returns MediaType.read? MediaType.toJson := by
  refine returns_record (fun _ => rfl) MediaType.toJson_eq (fun _ => rfl) (by decide) ?_
  intro m r media hr h
  obtain ⟨schema, hschema, h⟩ := Option.bind_eq_some_iff.mp h
  cases h
  exact (regains_optional hr Schema.returns_readPart? hschema).bind <| .done rfl

/-- The place of a parameter returns. The reader takes the names of the four places and
nothing else, so the name that is written is one of them. -/
theorem returns_location :
    Returns ParameterLocation.read? (fun location => .text location.name) := by
  intro n t location _ _
  exact ⟨by cases location <;> rfl, Tree.fits_ofText _, nofun⟩

/-- A parameter is always written with the flag that says whether it is required, although
the reader would take an absent one for `false`. -/
theorem Parameter.toJson_eq (p : Parameter) :
    p.toJson = .object (Json.present [
      ("name", some (.text p.name)),
      ("in", some (.text p.location.name)),
      ("description", p.description.map .text),
      ("required", some (.bool p.required)),
      ("schema", p.schema.map (RefOr.toJson Schema.toJson))]) := by
  simp [Parameter.toJson]

/-- A parameter is not taken for a reference. -/
theorem Parameter.referencePath?_toJson (p : Parameter) :
    referencePath? p.toJson.tree = none := by
  rw [Parameter.toJson_eq]
  exact referencePath?_present (by simp) (by simp)

/-- A parameter returns. -/
theorem returns_parameter : Returns Parameter.read? Parameter.toJson := by
  refine returns_record (fun _ => rfl) Parameter.toJson_eq (fun _ => rfl) (by decide) ?_
  intro m r p hr h
  obtain ⟨name, hname, h⟩ := Option.bind_eq_some_iff.mp h
  obtain ⟨location, hlocation, h⟩ := Option.bind_eq_some_iff.mp h
  obtain ⟨description, hdescription, h⟩ := Option.bind_eq_some_iff.mp h
  obtain ⟨required, hrequired, h⟩ := Option.bind_eq_some_iff.mp h
  obtain ⟨schema, hschema, h⟩ := Option.bind_eq_some_iff.mp h
  cases h
  exact (regains_required hr returns_text hname).bind <|
    (regains_required hr returns_location hlocation).bind <|
    (regains_optional hr returns_text hdescription).bind <|
    (regains_flag hr hrequired).bind <|
    (regains_optional hr Schema.returns_readPart? hschema).bind <|
    .done rfl

/-- The content of a request body is always written, also without an entry: the reader asks
for it. -/
theorem RequestBody.toJson_eq (b : RequestBody) :
    b.toJson = .object (Json.present [
      ("description", b.description.map .text),
      ("content", some (.object (b.content.toFields MediaType.toJson))),
      ("required", some (.bool b.required))]) := by
  simp [RequestBody.toJson]

/-- A request body is not taken for a reference. -/
theorem RequestBody.referencePath?_toJson (b : RequestBody) :
    referencePath? b.toJson.tree = none := by
  rw [RequestBody.toJson_eq]
  exact referencePath?_present (by simp) (by simp)

/-- A request body returns. -/
theorem returns_requestBody : Returns RequestBody.read? RequestBody.toJson := by
  refine returns_record (fun _ => rfl) RequestBody.toJson_eq (fun _ => rfl) (by decide) ?_
  intro m r b hr h
  obtain ⟨description, hdescription, h⟩ := Option.bind_eq_some_iff.mp h
  obtain ⟨content, hcontent, h⟩ := Option.bind_eq_some_iff.mp h
  obtain ⟨required, hrequired, h⟩ := Option.bind_eq_some_iff.mp h
  cases h
  exact (regains_optional hr returns_text hdescription).bind <|
    (regains_required hr returns_mediaType.mapOf hcontent).bind <|
    (regains_flag hr hrequired).bind <|
    .done rfl

/-- The content of a response is left out if it has no entry, unlike that of a request body.
Its description is always written, as the empty text if the document had none. -/
theorem Response.toJson_eq (r : Response) :
    r.toJson = .object (Json.present [
      ("description", some (.text r.description)),
      ("content", Json.mapped (r.content.toFields MediaType.toJson))]) := by
  simp [Response.toJson]

/-- A response is not taken for a reference. -/
theorem Response.referencePath?_toJson (r : Response) : referencePath? r.toJson.tree = none := by
  rw [Response.toJson_eq]
  exact referencePath?_present (by simp) (by simp)

/-- A response returns. The description is the one field whose default is written: the
reader puts the empty text where there was none, and reads the empty text back. -/
theorem returns_response : Returns Response.read? Response.toJson := by
  refine returns_record (fun _ => rfl) Response.toJson_eq (fun _ => rfl) (by decide) ?_
  intro m r response hr h
  obtain ⟨description, hdescription, h⟩ := Option.bind_eq_some_iff.mp h
  obtain ⟨content, hcontent, h⟩ := Option.bind_eq_some_iff.mp h
  cases h
  exact (regains_always hr returns_text ⟨rfl, Tree.fits_ofText ""⟩ hdescription).bind <|
    (regains_mapOf hr returns_mediaType hcontent).bind <|
    .done rfl

/-- A parameter by reference or inline returns, and so do the two below: the definition is
not taken for a reference. -/
theorem returns_parameterPart :
    Returns (RefOr.read? Parameter.read?) (RefOr.toJson Parameter.toJson) :=
  returns_parameter.refOr Parameter.referencePath?_toJson

/-- A request body by reference or inline returns. -/
theorem returns_requestBodyPart :
    Returns (RefOr.read? RequestBody.read?) (RefOr.toJson RequestBody.toJson) :=
  returns_requestBody.refOr RequestBody.referencePath?_toJson

/-- A response by reference or inline returns. -/
theorem returns_responsePart :
    Returns (RefOr.read? Response.read?) (RefOr.toJson Response.toJson) :=
  returns_response.refOr Response.referencePath?_toJson

/-- Whatever an operation leaves out is left out again: none of its fields is required, and
an empty list or map is not written. -/
theorem Operation.toJson_eq (o : Operation) :
    o.toJson = .object (Json.present [
      ("operationId", o.operationId.map .text),
      ("summary", o.summary.map .text),
      ("description", o.description.map .text),
      ("tags", Json.listed (o.tags.map .text)),
      ("parameters", Json.listed (o.parameters.map (RefOr.toJson Parameter.toJson))),
      ("requestBody", o.requestBody.map (RefOr.toJson RequestBody.toJson)),
      ("responses", Json.mapped (o.responses.toFields (RefOr.toJson Response.toJson))),
      ("deprecated", o.deprecated.map .bool)]) := by
  simp [Operation.toJson]

/-- An operation returns, field by field in the order in which it is read. -/
theorem returns_operation : Returns Operation.read? Operation.toJson := by
  refine returns_record (fun _ => rfl) Operation.toJson_eq (fun _ => rfl) (by decide) ?_
  intro m r o hr h
  obtain ⟨operationId, hid, h⟩ := Option.bind_eq_some_iff.mp h
  obtain ⟨summary, hsummary, h⟩ := Option.bind_eq_some_iff.mp h
  obtain ⟨description, hdescription, h⟩ := Option.bind_eq_some_iff.mp h
  obtain ⟨tags, htags, h⟩ := Option.bind_eq_some_iff.mp h
  obtain ⟨parameters, hparameters, h⟩ := Option.bind_eq_some_iff.mp h
  obtain ⟨requestBody, hrequestBody, h⟩ := Option.bind_eq_some_iff.mp h
  obtain ⟨responses, hresponses, h⟩ := Option.bind_eq_some_iff.mp h
  obtain ⟨deprecated, hdeprecated, h⟩ := Option.bind_eq_some_iff.mp h
  cases h
  exact (regains_optional hr returns_text hid).bind <|
    (regains_optional hr returns_text hsummary).bind <|
    (regains_optional hr returns_text hdescription).bind <|
    (regains_listOf hr returns_text htags).bind <|
    (regains_listOf hr returns_parameterPart hparameters).bind <|
    (regains_optional hr returns_requestBodyPart hrequestBody).bind <|
    (regains_mapOf hr returns_responsePart hresponses).bind <|
    (regains_optional hr returns_bool hdeprecated).bind <|
    .done rfl

/-- The operations of a path are written in the fixed order of the methods, whatever the
order they were given in. Nothing is lost by that, as a path has at most one for each
method. -/
theorem PathItem.toJson_eq (item : PathItem) :
    item.toJson = .object (Json.present [
      ("parameters", Json.listed (item.parameters.map (RefOr.toJson Parameter.toJson))),
      ("get", item.get.map Operation.toJson),
      ("put", item.put.map Operation.toJson),
      ("post", item.post.map Operation.toJson),
      ("delete", item.delete.map Operation.toJson),
      ("options", item.options.map Operation.toJson),
      ("head", item.head.map Operation.toJson),
      ("patch", item.patch.map Operation.toJson)]) := by
  simp [PathItem.toJson, Method.all, Method.fieldName, PathItem.operation?]

/-- The operations of a path return. -/
theorem returns_pathItem : Returns PathItem.read? PathItem.toJson := by
  refine returns_record (fun _ => rfl) PathItem.toJson_eq (fun _ => rfl) (by decide) ?_
  intro m r item hr h
  obtain ⟨parameters, hparameters, h⟩ := Option.bind_eq_some_iff.mp h
  obtain ⟨get, hget, h⟩ := Option.bind_eq_some_iff.mp h
  obtain ⟨put, hput, h⟩ := Option.bind_eq_some_iff.mp h
  obtain ⟨post, hpost, h⟩ := Option.bind_eq_some_iff.mp h
  obtain ⟨delete, hdelete, h⟩ := Option.bind_eq_some_iff.mp h
  obtain ⟨options, hoptions, h⟩ := Option.bind_eq_some_iff.mp h
  obtain ⟨head, hhead, h⟩ := Option.bind_eq_some_iff.mp h
  obtain ⟨patch, hpatch, h⟩ := Option.bind_eq_some_iff.mp h
  cases h
  exact (regains_listOf hr returns_parameterPart hparameters).bind <|
    (regains_optional hr returns_operation hget).bind <|
    (regains_optional hr returns_operation hput).bind <|
    (regains_optional hr returns_operation hpost).bind <|
    (regains_optional hr returns_operation hdelete).bind <|
    (regains_optional hr returns_operation hoptions).bind <|
    (regains_optional hr returns_operation hhead).bind <|
    (regains_optional hr returns_operation hpatch).bind <|
    .done rfl

/-- The four maps of the components, each left out if it is empty. Their entries keep the
order in which they were given. -/
theorem Components.toJson_eq (c : Components) :
    c.toJson = .object (Json.present [
      ("schemas", Json.mapped (c.schemas.toFields (RefOr.toJson Schema.toJson))),
      ("parameters", Json.mapped (c.parameters.toFields (RefOr.toJson Parameter.toJson))),
      ("requestBodies", Json.mapped (c.requestBodies.toFields (RefOr.toJson RequestBody.toJson))),
      ("responses", Json.mapped (c.responses.toFields (RefOr.toJson Response.toJson)))]) := by
  simp [Components.toJson]

/-- The components return. -/
theorem returns_components : Returns Components.read? Components.toJson := by
  refine returns_record (fun _ => rfl) Components.toJson_eq (fun _ => rfl) (by decide) ?_
  intro m r c hr h
  obtain ⟨schemas, hschemas, h⟩ := Option.bind_eq_some_iff.mp h
  obtain ⟨parameters, hparameters, h⟩ := Option.bind_eq_some_iff.mp h
  obtain ⟨requestBodies, hrequestBodies, h⟩ := Option.bind_eq_some_iff.mp h
  obtain ⟨responses, hresponses, h⟩ := Option.bind_eq_some_iff.mp h
  cases h
  exact (regains_mapOf hr Schema.returns_readPart? hschemas).bind <|
    (regains_mapOf hr returns_parameterPart hparameters).bind <|
    (regains_mapOf hr returns_requestBodyPart hrequestBodies).bind <|
    (regains_mapOf hr returns_responsePart hresponses).bind <|
    .done rfl

/-- The fields of a document. The version of the format is among them, and the reader
accepts no text without one that begins with `3.`. -/
theorem Document.toJson_eq (d : Document) :
    d.toJson = .object (Json.present [
      ("openapi", some (.text d.openapi)),
      ("info", some d.info.toJson),
      ("servers", Json.listed (d.servers.map Server.toJson)),
      ("paths", Json.mapped (d.paths.toFields PathItem.toJson)),
      ("components", d.components.map Components.toJson)]) := by
  simp [Document.toJson]

/-- **A document returns**: what was read from a node that fits is read from the node of
what is written. -/
theorem returns_document : Returns Document.ofTree? Document.toJson := by
  refine returns_record (fun _ => rfl) Document.toJson_eq (fun _ => rfl) (by decide) ?_
  intro m r d hr h
  obtain ⟨openapi, hopenapi, h⟩ := Option.bind_eq_some_iff.mp h
  obtain ⟨info, hinfo, h⟩ := Option.bind_eq_some_iff.mp h
  obtain ⟨servers, hservers, h⟩ := Option.bind_eq_some_iff.mp h
  obtain ⟨paths, hpaths, h⟩ := Option.bind_eq_some_iff.mp h
  obtain ⟨components, hcomponents, h⟩ := Option.bind_eq_some_iff.mp h
  cases h
  exact (regains_required hr returns_text hopenapi).bind <|
    (regains_required hr returns_info hinfo).bind <|
    (regains_listOf hr returns_server hservers).bind <|
    (regains_mapOf hr returns_pathItem hpaths).bind <|
    (regains_optional hr returns_components hcomponents).bind <|
    .done rfl

/-! ## Documents as texts

What was said of nodes is said of texts, through the round trip of a JSON value
(`Json.read?_compact`). Two facts lead from one to the other: a node that was read from a
text fits the nesting limit, and the values of the document are whole, hence so is all that
is written. -/

/-- What a JSON text is a document by: its node holds a document, and the version that this
names begins with `3.`. -/
theorem Document.read_json_eq_ok_iff {text : String} {d : Document} :
    Document.read .json text = .ok d ↔ ∃ t, Json.read? text = some t ∧
      Document.ofTree? t = some d ∧ Text.startsWith d.openapi "3." = true := by
  unfold Document.read
  constructor
  · intro h
    split at h
    · cases h
    · next d' hd =>
      split_ifs at h with hversion
      cases h
      obtain ⟨t, ht, hd⟩ := Option.bind_eq_some_iff.mp hd
      exact ⟨t, ht, hd, hversion⟩
  · rintro ⟨t, ht, hd, hversion⟩
    have hbind : (TextFormat.json.read? Document.expected text).bind Document.ofTree? = some d :=
      Option.bind_eq_some_iff.mpr ⟨t, ht, hd⟩
    rw [hbind]
    exact if_pos hversion

/-- **A document is read back from the text that it is written as**, with every map in its
order, if the numbers that it carries are integers.

The document is one that was read, from any text: only then are the names of its schemas
distinct as the reader leaves them, and only then is it nested no deeper than a text may be.

The proof goes down the types of the reader. For each there is a lemma that what is written
for a value of this type is read as the value; the limit on nesting and the numbers are the
two conditions that it has to hand on. -/
theorem Document.read_compact {text : String} {d : Document}
    (h : Document.read .json text = .ok d) (hvalues : ∀ j ∈ d.values, j.isWhole = true) :
    Document.read .json d.toJson.compact = .ok d := by
  obtain ⟨t, ht, hd, hversion⟩ := Document.read_json_eq_ok_iff.mp h
  obtain ⟨hreads, hfits, -⟩ := returns_document (Json.fits_of_read? ht) hd
  have hcompact : Json.read? d.toJson.compact = some d.toJson.tree :=
    Json.read?_compact (Document.keepsWhole d hvalues) hfits
  exact Document.read_json_eq_ok_iff.mpr ⟨_, hcompact, hreads, hversion⟩

/-- A document as a text: a path before one that sorts before it, a repeated key, a type of
two names, characters that are escaped, and values that are integers at both ends of their
range. -/
def Document.sampleText : String :=
  Json.compact <| .object
    [("openapi", .text "3.0.3"),
     ("info", .object [("title", .text "a \"b\"\n\t"), ("version", .text "1")]),
     ("paths", .object
       [("/b", .object [("get", .object [("responses", .object
          [("200", .object [("$ref", .text "#/components/responses/Done")])])])]),
        ("/a", .object [("parameters", .list [.object
          [("name", .text "q"), ("in", .text "query"), ("schema", .object
            [("type", .list [.text "integer", .text "null"]),
             ("default", .number (.integer (-9223372036854775808))),
             ("enum", .list [.number (.integer 18446744073709551615), .null])])]])])]),
     ("components", .object [("schemas", .object
       [("Z", .object [("additionalProperties", .bool false), ("extra", .number (.integer 1))]),
        ("A", .object [("allOf", .list [.object [("$ref", .text "#/components/schemas/Z")]])]),
        ("Z", .object [("example", .object [("b", .bool true), ("a", .list [])])])])])]

/-- The round trip at the sample text: it is read, its four values are whole, and so what it
is written as is read back. -/
theorem Document.read_compact_of_sampleText : ∃ d,
    Document.read .json Document.sampleText = .ok d ∧ (∀ j ∈ d.values, j.isWhole = true) ∧
      Document.read .json d.toJson.compact = .ok d := by
  have hread : ((Json.read? Document.sampleText).bind Document.ofTree?).any (fun d =>
      Text.startsWith d.openapi "3." && d.values.length = 4 && d.values.all Json.isWhole)
        = true := by
    rw [Document.sampleText, Json.compact, Json.read?_ofList]
    decide +kernel
  obtain ⟨d, hd, hsample⟩ := (Option.any_eq_true _ _).mp hread
  obtain ⟨t, ht, hd⟩ := Option.bind_eq_some_iff.mp hd
  simp only [Bool.and_eq_true, List.all_eq_true] at hsample
  have hok : Document.read .json Document.sampleText = .ok d :=
    Document.read_json_eq_ok_iff.mpr ⟨t, ht, hd, hsample.1.1⟩
  exact ⟨d, hok, hsample.2, Document.read_compact hok hsample.2⟩

end ClientGen
