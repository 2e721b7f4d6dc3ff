import ClientGen.Schema.Basic

/-!
# API documents

A document describes an API: its operations by path and method, and the
components – schemas, parameters, request bodies, responses – that they refer
to. Only what the generator uses is kept.

Maps keep the order of the document (`OrderedMap`), because the generated code
follows it.
-/

namespace ClientGen

/-- What the document says about the API as a whole. -/
structure Info where
  title : String
  description : Option String
  version : String
deriving DecidableEq, Repr, Inhabited

/-- A place where the API is served. -/
structure Server where
  url : String
  description : Option String
deriving DecidableEq, Repr, Inhabited

/-- Content of one media type. -/
structure MediaType where
  schema : Option (RefOr Schema) := none
deriving Inhabited

/-- Where a parameter travels in a request. -/
inductive ParameterLocation where
  | query
  | header
  | path
  | cookie
deriving DecidableEq, Repr, Inhabited

/-- A parameter of an operation. -/
structure Parameter where
  name : String
  location : ParameterLocation
  description : Option String
  required : Bool
  schema : Option (RefOr Schema)
deriving Inhabited

/-- The body of a request, by media type. -/
structure RequestBody where
  description : Option String
  content : OrderedMap MediaType
  required : Bool
deriving Inhabited

/-- A response, by media type. -/
structure Response where
  description : String
  content : OrderedMap MediaType
deriving Inhabited

/-- One operation of the API. -/
structure Operation where
  operationId : Option String
  summary : Option String
  description : Option String
  tags : List String
  parameters : List (RefOr Parameter)
  requestBody : Option (RefOr RequestBody)
  /-- The responses by status code. -/
  responses : OrderedMap (RefOr Response)
  deprecated : Option Bool
deriving Inhabited

/-- The methods a path may have operations for, in the order in which they are
taken. -/
inductive Method where
  | get
  | put
  | post
  | delete
  | options
  | head
  | patch
deriving DecidableEq, Repr, Inhabited

namespace Method

/-- The methods in their order. -/
def all : List Method := [.get, .put, .post, .delete, .options, .head, .patch]

/-- The name of a method in a request. -/
def name : Method → String
  | .get => "GET"
  | .put => "PUT"
  | .post => "POST"
  | .delete => "DELETE"
  | .options => "OPTIONS"
  | .head => "HEAD"
  | .patch => "PATCH"

/-- The field of a path item that holds the operation of a method. -/
def fieldName : Method → String
  | .get => "get"
  | .put => "put"
  | .post => "post"
  | .delete => "delete"
  | .options => "options"
  | .head => "head"
  | .patch => "patch"

end Method

/-- The operations of one path. -/
structure PathItem where
  /-- Parameters of every operation of the path. -/
  parameters : List (RefOr Parameter)
  get : Option Operation
  put : Option Operation
  post : Option Operation
  delete : Option Operation
  options : Option Operation
  head : Option Operation
  patch : Option Operation
deriving Inhabited

namespace PathItem

/-- The operation of a method. -/
def operation? (item : PathItem) : Method → Option Operation
  | .get => item.get
  | .put => item.put
  | .post => item.post
  | .delete => item.delete
  | .options => item.options
  | .head => item.head
  | .patch => item.patch

/-- **The operations of a path**, in the order of the methods. -/
def operations (item : PathItem) : List (Method × Operation) :=
  Method.all.filterMap (fun m => (item.operation? m).map (m, ·))

end PathItem

/-- The definitions that a document refers to. -/
structure Components where
  schemas : OrderedMap (RefOr Schema) := {}
  parameters : OrderedMap (RefOr Parameter) := {}
  requestBodies : OrderedMap (RefOr RequestBody) := {}
  responses : OrderedMap (RefOr Response) := {}
deriving Inhabited

/-- **An API document.** -/
structure Document where
  /-- The version of the format. -/
  openapi : String
  info : Info
  servers : List Server
  paths : OrderedMap PathItem
  components : Option Components
deriving Inhabited

end ClientGen
