import ClientGen.Client.Call
import ClientGen.Conversion.Types
import ClientGen.Document.Basic
import ClientGen.Naming.Route

/-!
# From an operation of the document to one of the client

The parameters of an operation are those of its path, as far as it does not
declare them anew, then its own, then the request body: one parameter, or one
for each property of a form. References to parameters, bodies and responses
must lead somewhere; a reference to a schema need not, unless the schema is
that of a form.
-/

namespace ClientGen.Converter

/-- The kind of a parameter at a location. -/
def kindAt : ParameterLocation → Client.ArgumentKind
  | .path => .path
  | .query => .query
  | .header => .header
  | .cookie => .cookie

/-- The format of a part, its reference followed. -/
def formatOf (k : Converter) (part : RefOr Schema) : Option String :=
  (k.components.resolve part).toOption.bind (·.format)

/-- The description of a part, its reference followed. -/
def descriptionOf (k : Converter) (part : RefOr Schema) : Option String :=
  (k.components.resolve part).toOption.bind (·.description)

/-- **A declared parameter.** One of the path is always required, and one without
a schema is a text. -/
def parameter (k : Converter) (p : Parameter) : Client.Argument :=
  let text := k.types.get "string"
  { wireName := p.name
    name := Naming.variableName p.name
    dataType := (p.schema.map k.partType).getD text
    elementType := (p.schema.map k.elementType).getD text
    format := p.schema.bind k.formatOf
    description := p.description
    kind := kindAt p.location
    required := p.required || p.location = .path }

/-- Whether two parameters are the same one: by name and location. -/
def sameParameter (p q : Parameter) : Bool := p.name = q.name && p.location = q.location

/-- Declares a parameter, in place of an earlier declaration of the same. -/
def declare (declared : List Parameter) (p : Parameter) : List Parameter :=
  declared.filter (fun d => !sameParameter d p) ++ [p]

/-- **The declared parameters** of an operation: those of its path, then its own. -/
def declaredParameters (k : Converter) (shared own : List (RefOr Parameter)) :
    Except ReferenceError (List Parameter) := do
  let shared ← shared.mapM k.components.parameter
  let own ← own.mapM k.components.parameter
  return own.foldl declare shared

/-- The parameters of a form: the properties of its schema. -/
def formParameters (k : Converter) (part : RefOr Schema) :
    Except ReferenceError (List Client.Argument) := do
  let form ← k.components.resolve part
  return form.properties.map (fun p =>
    { wireName := p.1
      name := Naming.variableName p.1
      dataType := k.partType p.2
      elementType := k.elementType p.2
      format := k.formatOf p.2
      description := k.descriptionOf p.2
      kind := .form
      required := form.isRequired p.1 })

/-- The one parameter of a request body, called after its model if there is one. -/
def bodyParameter (k : Converter) (part : RefOr Schema) (required : Bool) : Client.Argument :=
  let wireName := (part.path?.map Reference.shortName).getD "body"
  { wireName
    name := Naming.variableName wireName
    dataType := k.partType part
    elementType := k.elementType part
    kind := .body
    required }

/-- Whether a media type is that of a form. -/
def isForm (mediaType : String) : Bool :=
  mediaType = Client.multipartForm || mediaType = Client.urlEncodedForm

/-- The parameters of a request body, by its first media type. Without a schema
there it has none. -/
def bodyParameters (k : Converter) (body : RequestBody) :
    Except ReferenceError (List Client.Argument) :=
  match body.content.entries.head? with
  | some (mediaType, { schema := some part }) =>
    if isForm mediaType then k.formParameters part
    else .ok [k.bodyParameter part body.required]
  | _ => .ok []

/-- The request body of an operation, if it has one. -/
def requestBody? (k : Converter) (op : Operation) : Except ReferenceError (Option RequestBody) :=
  match op.requestBody with
  | some body => (k.components.requestBody body).map some
  | none => .ok none

/-- The first response for success: its status begins with `2`. -/
def successResponse? (k : Converter) (op : Operation) :
    Except ReferenceError (Option Response) :=
  match List.find? (fun e => Text.startsWith e.1 "2") op.responses.entries with
  | some (_, response) => (k.components.response response).map some
  | none => .ok none

/-- The media types of a content. -/
def mediaTypes (content : OrderedMap MediaType) : List (Option String) := content.keys.map some

/-- The type of a response: that of the first schema in its content. -/
def returnType (k : Converter) (response : Response) : Option String :=
  (response.content.values.findSome? (·.schema)).map k.partType

/-- **The operation of a method and path.** `shared` are the parameters of the
path. References are followed in the order of parameters, body, response. -/
def operation (k : Converter) (method path : String) (op : Operation)
    (shared : List (RefOr Parameter)) : Except ReferenceError Client.Call := do
  -- Everything that can fail comes first, in the order in which it is reported.
  let declared ← k.declaredParameters shared op.parameters
  let body ← k.requestBody? op
  let fromBody ← match body with
    | some body => k.bodyParameters body
    | none => .ok []
  let response ← k.successResponse? op
  let id := op.operationId.getD (Naming.routeName method path)
  let consumes := (body.map (fun b => mediaTypes b.content)).getD []
  return {
    id
    nickname := Naming.variableName id
    method := Text.upperCase method
    path
    summary := op.summary
    notes := op.description
    tags := op.tags
    arguments := Client.Argument.markFollowed (declared.map k.parameter ++ fromBody)
    consumes
    produces := (response.map (fun r => mediaTypes r.content)).getD []
    hasConsumes := !consumes.isEmpty
    returnType := response.bind k.returnType
    isDeprecated := op.deprecated.getD false }

end ClientGen.Converter
