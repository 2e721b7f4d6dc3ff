import ClientGen.Document.Basic
import ClientGen.Schema.Printer

/-!
# A document as JSON

The inverse of reading: every field in its fixed place, absent values and empty
lists and maps left out. The flag `required` of a parameter or a request body,
the description of a response and the content of a request body are always
written.
-/

namespace ClientGen

/-- The entries of a map, each value written by `write`. -/
def OrderedMap.toFields {α : Type} (write : α → Json) (m : OrderedMap α) : List (String × Json) :=
  m.entries.map (fun e => (e.1, write e.2))

/-- The JSON form of what the document says about the API. -/
def Info.toJson (i : Info) : Json :=
  .object <| [("title", .text i.title)] ++ Json.field? "description" .text i.description
    ++ [("version", .text i.version)]

/-- The JSON form of a server. -/
def Server.toJson (s : Server) : Json :=
  .object <| [("url", .text s.url)] ++ Json.field? "description" .text s.description

/-- The JSON form of the content of one media type. -/
def MediaType.toJson (m : MediaType) : Json :=
  .object <| Json.field? "schema" (RefOr.toJson Schema.toJson) m.schema

/-- The name of a location. -/
def ParameterLocation.name : ParameterLocation → String
  | .query => "query"
  | .header => "header"
  | .path => "path"
  | .cookie => "cookie"

/-- The JSON form of a parameter. -/
def Parameter.toJson (p : Parameter) : Json :=
  .object <| [("name", .text p.name), ("in", .text p.location.name)]
    ++ Json.field? "description" .text p.description ++ [("required", .bool p.required)]
    ++ Json.field? "schema" (RefOr.toJson Schema.toJson) p.schema

/-- The JSON form of a request body. -/
def RequestBody.toJson (b : RequestBody) : Json :=
  .object <| Json.field? "description" .text b.description
    ++ [("content", .object (b.content.toFields MediaType.toJson)), ("required", .bool b.required)]

/-- The JSON form of a response. -/
def Response.toJson (r : Response) : Json :=
  .object <| [("description", .text r.description)]
    ++ Json.mapField "content" (r.content.toFields MediaType.toJson)

/-- The JSON form of an operation. -/
def Operation.toJson (o : Operation) : Json :=
  .object <| Json.field? "operationId" .text o.operationId
    ++ Json.field? "summary" .text o.summary
    ++ Json.field? "description" .text o.description
    ++ Json.listField "tags" (o.tags.map .text)
    ++ Json.listField "parameters" (o.parameters.map (RefOr.toJson Parameter.toJson))
    ++ Json.field? "requestBody" (RefOr.toJson RequestBody.toJson) o.requestBody
    ++ Json.mapField "responses" (o.responses.toFields (RefOr.toJson Response.toJson))
    ++ Json.field? "deprecated" .bool o.deprecated

/-- The JSON form of the operations of a path. -/
def PathItem.toJson (item : PathItem) : Json :=
  .object <| Json.listField "parameters" (item.parameters.map (RefOr.toJson Parameter.toJson))
    ++ Method.all.flatMap (fun m => Json.field? m.fieldName Operation.toJson (item.operation? m))

/-- The JSON form of the components. -/
def Components.toJson (c : Components) : Json :=
  .object <| Json.mapField "schemas" (c.schemas.toFields (RefOr.toJson Schema.toJson))
    ++ Json.mapField "parameters" (c.parameters.toFields (RefOr.toJson Parameter.toJson))
    ++ Json.mapField "requestBodies" (c.requestBodies.toFields (RefOr.toJson RequestBody.toJson))
    ++ Json.mapField "responses" (c.responses.toFields (RefOr.toJson Response.toJson))

/-- **The JSON form of a document.** -/
def Document.toJson (d : Document) : Json :=
  .object <| [("openapi", .text d.openapi), ("info", d.info.toJson)]
    ++ Json.listField "servers" (d.servers.map Server.toJson)
    ++ Json.mapField "paths" (d.paths.toFields PathItem.toJson)
    ++ Json.field? "components" Components.toJson d.components

end ClientGen
