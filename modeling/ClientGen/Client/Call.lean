/-!
# Calls of the client

An operation of the document becomes a call: a method of an API class, whose
arguments carry the parameters and the body of the request. The calls of one
tag make an `Api`, and its `ApiAdjustment` says what happens to their arguments.

An argument knows whether another follows it, so that a signature can be
written argument by argument (`markFollowed`).
-/

namespace ClientGen.Client

/-- Where an argument travels in a request. -/
inductive ArgumentKind where
  | path
  | query
  | header
  | cookie
  | body
  | form
deriving DecidableEq, Repr, Inhabited

namespace ArgumentKind

/-- The kinds in the order of their declaration. -/
def all : List ArgumentKind := [.path, .query, .header, .cookie, .body, .form]

/-- The name of a kind. -/
def name : ArgumentKind → String
  | .path => "path"
  | .query => "query"
  | .header => "header"
  | .cookie => "cookie"
  | .body => "body"
  | .form => "form"

/-- The kind of a name. -/
def ofName? (name : String) : Option ArgumentKind := all.find? (fun k => k.name = name)

end ArgumentKind

/-- **An argument of a call.** -/
structure Argument where
  /-- The name on the wire. -/
  wireName : String
  /-- The identifier in the generated code. -/
  name : String
  dataType : String
  elementType : String
  format : Option String := none
  description : Option String := none
  kind : ArgumentKind
  required : Bool := false
  /-- Whether another argument follows in the signature. -/
  hasMore : Bool := false
deriving DecidableEq, Repr, Inhabited

/-- **A call.** -/
structure Call where
  id : String
  /-- The identifier in the generated code. -/
  nickname : String
  /-- The method of the request, in upper case. -/
  method : String
  path : String
  summary : Option String := none
  notes : Option String := none
  tags : List String := []
  arguments : List Argument := []
  /-- The media types of the request body; an entry may lack its type. -/
  consumes : List (Option String) := []
  /-- The media types of the response. -/
  produces : List (Option String) := []
  hasConsumes : Bool := false
  isMultipart : Bool := false
  returnType : Option String := none
  isDeprecated : Bool := false
deriving DecidableEq, Repr, Inhabited

/-- **The calls of one API class.** -/
structure Api where
  tag : String
  className : String
  calls : List Call
  /-- Whether some call is multipart. -/
  isMultipart : Bool := false
deriving DecidableEq, Repr, Inhabited

/-- The media type of a form with parts. -/
def multipartForm : String := "multipart/form-data"

/-- The media type of a form in one line. -/
def urlEncodedForm : String := "application/x-www-form-urlencoded"

namespace Argument

/-- **Marks every argument but the last** as followed by another. -/
def markFollowed : List Argument → List Argument
  | [] => []
  | [p] => [{ p with hasMore := false }]
  | p :: q :: ps => { p with hasMore := true } :: markFollowed (q :: ps)

/-- Unmarks the last argument, leaving the others as they are. -/
def endHere : List Argument → List Argument
  | [] => []
  | [p] => [{ p with hasMore := false }]
  | p :: q :: ps => p :: endHere (q :: ps)

/-- The arguments that are not named for removal. Without any names nothing is
touched. -/
def without (names : List String) (ps : List Argument) : List Argument :=
  if names.isEmpty then ps else endHere (ps.filter (fun p => !names.contains p.wireName))

/-- **Path arguments first**, both parts in their order. -/
def pathFirst (ps : List Argument) : List Argument :=
  markFollowed (ps.filter (·.kind = .path) ++ ps.filter (·.kind ≠ .path))

/-- Whether an argument carries binary data. -/
def isBinary (p : Argument) : Bool := p.format = some "binary"

/-- Gives the arguments with binary data a type of their own. -/
def withBinaryType (type : String) (ps : List Argument) : List Argument :=
  ps.map (fun p => if p.isBinary then { p with dataType := type, elementType := type } else p)

end Argument

/-- Whether the first media type is that of a form with parts. -/
def startsMultipart : List (Option String) → Bool
  | some mediaType :: _ => mediaType = multipartForm
  | _ => false

/-- A path without one leading slash. -/
def withoutLeadingSlash (path : String) : String :=
  match path.toList with
  | '/' :: cs => String.ofList cs
  | _ => path

/-- What happens to the calls of an API. -/
structure ApiAdjustment where
  /-- The wire names of arguments to leave out. -/
  removes : List String := []
  detectsMultipart : Bool := false
  putsPathFirst : Bool := false
  /-- The type of arguments with binary data. -/
  binaryType : Option String := none
  stripsLeadingSlash : Bool := false
deriving DecidableEq, Repr, Inhabited

namespace ApiAdjustment

/-- Whether a call is found to be multipart. -/
def findsMultipart (a : ApiAdjustment) (call : Call) : Bool :=
  a.detectsMultipart && call.hasConsumes && startsMultipart call.consumes

/-- The arguments of a call after the adjustment. -/
def arguments (a : ApiAdjustment) (ps : List Argument) : List Argument :=
  let ps := Argument.without a.removes ps
  let ps := if a.putsPathFirst then Argument.pathFirst ps else ps
  match a.binaryType with
  | some type => Argument.withBinaryType type ps
  | none => ps

/-- The adjustment of one call. -/
def call (a : ApiAdjustment) (call : Call) : Call :=
  { call with
    arguments := a.arguments call.arguments
    isMultipart := call.isMultipart || a.findsMultipart call
    path := if a.stripsLeadingSlash then withoutLeadingSlash call.path else call.path }

/-- **The adjustment of an API.** -/
def apply (a : ApiAdjustment) (api : Api) : Api :=
  { api with
    calls := api.calls.map a.call
    isMultipart := api.isMultipart || api.calls.any a.findsMultipart }

end ApiAdjustment

end ClientGen.Client
