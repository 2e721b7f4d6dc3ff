import ClientGen.Document.Basic
import ClientGen.Schema.Reader

/-!
# Reading a document

Each structure is read from its record; `Document.ofTree?` reads the whole. No
more is checked than that the fields are there and of the right kind: whether a
reference leads anywhere shows when it is followed. What is expected of a
structure is stated beside its reader, as far as it does not stand in a choice.
-/

namespace ClientGen

/-- What is expected of what the document says about the API. -/
def Info.expected : Expectation :=
  .record [("title", .text), ("description", .optional .text), ("version", .text)]

/-- Reads what the document says about the API. -/
def Info.read? (t : Tree) : Option Info := do
  let r ← t.record? expected.fieldNames
  let title ← r.required? "title" Tree.text?
  let description ← r.optional? "description" Tree.text?
  let version ← r.required? "version" Tree.text?
  return { title, description, version }

/-- What is expected of a server. -/
def Server.expected : Expectation := .record [("url", .text), ("description", .optional .text)]

/-- Reads a server. -/
def Server.read? (t : Tree) : Option Server := do
  let r ← t.record? expected.fieldNames
  let url ← r.required? "url" Tree.text?
  let description ← r.optional? "description" Tree.text?
  return { url, description }

/-- Reads the content of one media type. -/
def MediaType.read? (t : Tree) : Option MediaType := do
  let r ← t.record? ["schema"]
  return { schema := ← r.optional? "schema" Schema.readPart? }

/-- The location of a name, in exactly its spelling. -/
def ParameterLocation.ofName? : String → Option ParameterLocation
  | "query" => some .query
  | "header" => some .header
  | "path" => some .path
  | "cookie" => some .cookie
  | _ => none

/-- Reads a location: its name, or a map whose one key it is, to `null`. -/
def ParameterLocation.read? : Tree → Option ParameterLocation
  | .record [(key, .scalar .null)] => do
    ofName? (← key.fieldName? ["query", "header", "path", "cookie"])
  | t => do ofName? (← t.text?)

/-- Reads a parameter. -/
def Parameter.read? (t : Tree) : Option Parameter := do
  let r ← t.record? ["name", "in", "description", "required", "schema"]
  let name ← r.required? "name" Tree.text?
  let location ← r.required? "in" ParameterLocation.read?
  let description ← r.optional? "description" Tree.text?
  let required ← r.withDefault? "required" false Tree.bool?
  let schema ← r.optional? "schema" Schema.readPart?
  return { name, location, description, required, schema }

/-- Reads a request body. -/
def RequestBody.read? (t : Tree) : Option RequestBody := do
  let r ← t.record? ["description", "content", "required"]
  let description ← r.optional? "description" Tree.text?
  let content ← r.required? "content" (Tree.mapOf? MediaType.read?)
  let required ← r.withDefault? "required" false Tree.bool?
  return { description, content, required }

/-- Reads a response. -/
def Response.read? (t : Tree) : Option Response := do
  let r ← t.record? ["description", "content"]
  let description ← r.withDefault? "description" "" Tree.text?
  let content ← r.withDefault? "content" .empty (Tree.mapOf? MediaType.read?)
  return { description, content }

/-- What is expected of an operation. -/
def Operation.expected : Expectation :=
  .record [("operationId", .optional .text), ("summary", .optional .text),
    ("description", .optional .text), ("tags", .list .text), ("parameters", .list .anything),
    ("requestBody", .optional .anything), ("responses", .map .anything),
    ("deprecated", .optional .flag)]

/-- Reads an operation. -/
def Operation.read? (t : Tree) : Option Operation := do
  let r ← t.record? expected.fieldNames
  let operationId ← r.optional? "operationId" Tree.text?
  let summary ← r.optional? "summary" Tree.text?
  let description ← r.optional? "description" Tree.text?
  let tags ← r.withDefault? "tags" [] (Tree.listOf? Tree.text?)
  let parameters ← r.withDefault? "parameters" [] (Tree.listOf? (RefOr.read? Parameter.read?))
  let requestBody ← r.optional? "requestBody" (RefOr.read? RequestBody.read?)
  let responses ← r.withDefault? "responses" .empty (Tree.mapOf? (RefOr.read? Response.read?))
  let deprecated ← r.optional? "deprecated" Tree.bool?
  return { operationId, summary, description, tags, parameters, requestBody, responses,
           deprecated }

/-- What is expected of a path. -/
def PathItem.expected : Expectation :=
  .record (("parameters", .list .anything)
    :: Method.all.map (fun m => (m.fieldName, .optional Operation.expected)))

/-- Reads the operations of a path. -/
def PathItem.read? (t : Tree) : Option PathItem := do
  let r ← t.record? expected.fieldNames
  let parameters ← r.withDefault? "parameters" [] (Tree.listOf? (RefOr.read? Parameter.read?))
  let get ← r.optional? "get" Operation.read?
  let put ← r.optional? "put" Operation.read?
  let post ← r.optional? "post" Operation.read?
  let delete ← r.optional? "delete" Operation.read?
  let options ← r.optional? "options" Operation.read?
  let head ← r.optional? "head" Operation.read?
  let patch ← r.optional? "patch" Operation.read?
  return { parameters, get, put, post, delete, options, head, patch }

/-- What is expected of the components. -/
def Components.expected : Expectation :=
  .record [("schemas", .map .anything), ("parameters", .map .anything),
    ("requestBodies", .map .anything), ("responses", .map .anything)]

/-- Reads the components. -/
def Components.read? (t : Tree) : Option Components := do
  let r ← t.record? expected.fieldNames
  let schemas ← r.withDefault? "schemas" .empty (Tree.mapOf? Schema.readPart?)
  let parameters ← r.withDefault? "parameters" .empty
    (Tree.mapOf? (RefOr.read? Parameter.read?))
  let requestBodies ← r.withDefault? "requestBodies" .empty
    (Tree.mapOf? (RefOr.read? RequestBody.read?))
  let responses ← r.withDefault? "responses" .empty (Tree.mapOf? (RefOr.read? Response.read?))
  return { schemas, parameters, requestBodies, responses }

/-- What is expected of a document. -/
def Document.expected : Expectation :=
  .record [("openapi", .text), ("info", Info.expected), ("servers", .list Server.expected),
    ("paths", .map PathItem.expected), ("components", .optional Components.expected)]

/-- **Reads a document from its tree.** -/
def Document.ofTree? (t : Tree) : Option Document := do
  let r ← t.record? expected.fieldNames
  let openapi ← r.required? "openapi" Tree.text?
  let info ← r.required? "info" Info.read?
  let servers ← r.withDefault? "servers" [] (Tree.listOf? Server.read?)
  let paths ← r.withDefault? "paths" .empty (Tree.mapOf? PathItem.read?)
  let components ← r.optional? "components" Components.read?
  return { openapi, info, servers, paths, components }

end ClientGen
