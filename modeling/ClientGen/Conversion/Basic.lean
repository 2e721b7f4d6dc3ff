import ClientGen.Client.Call
import ClientGen.Conversion.Models
import ClientGen.Conversion.Operations
import ClientGen.Schema.Preparation

/-!
# From a document to a client

The conversion prepares the schemas of the components, makes a model of each
one that is defined inline, and collects the operations into one API per tag.
What it does beyond that is a matter of the target (`ConversionPolicy`) and of
the run (`ConversionOptions`); a step is taken where both want it.

References are followed in the document as it stands while schemas are
prepared, and in the prepared components from then on.
-/

namespace ClientGen

/-- What a target wants from the conversion. -/
structure ConversionPolicy where
  loosensComposedItems : Bool := false
  expandsItems : Bool := false
  flattensModels : Bool := false
  relaxesAlternatives : Bool := false
  marksAliases : Bool := false
  escapesLiterals : Bool := false
  removesParameters : Bool := false
  detectsMultipart : Bool := false
  putsPathFirst : Bool := false
  stripsLeadingSlash : Bool := false
  /-- The type of parameters with binary data. -/
  binaryType : Option String := none
deriving DecidableEq, Repr, Inhabited

/-- What a run wants from the conversion. -/
structure ConversionOptions where
  /-- Classes without properties are allowed. -/
  keepsEmpty : Bool := false
  /-- Items that are a composition become untyped objects. -/
  loosensComposedItems : Bool := true
  /-- The properties of models with alternatives are optional. -/
  relaxesAlternatives : Bool := false
  /-- Other names of primitive types are written as type aliases. -/
  primitiveAliases : Bool := false
  /-- The wire names of parameters to leave out. -/
  removes : List String := []
  style : Naming.Style := {}
  types : TypeMapping := .standard
deriving DecidableEq, Inhabited

/-- **A client**: what the generated code is written from. -/
structure Client where
  title : String
  version : String
  description : Option String
  /-- Where the API is served. -/
  basePath : Option String
  models : List Client.Model
  apis : List Client.Api
  /-- Whether some operation is multipart. -/
  isMultipart : Bool
deriving DecidableEq, Repr, Inhabited

/-- Why a document cannot be converted. -/
inductive ConversionError where
  /-- A reference leads nowhere. -/
  | reference (cause : ReferenceError)
  /-- The items of a schema refer back to it, so that writing them out has no
  end. -/
  | endlessItems (schema : String)
deriving DecidableEq, Repr, Inhabited

/-- The text of a conversion error. -/
def ConversionError.message : ConversionError → String
  | .reference cause => "resolve error: " ++ cause.message
  | .endlessItems schema => "items without end in schema: " ++ schema

/-- What lies behind a conversion error. -/
def ConversionError.causes : ConversionError → List String
  | .reference cause => [cause.message]
  | .endlessItems _ => []

namespace Conversion

/-- The preparation of schemas under a policy and options. -/
def preparation (policy : ConversionPolicy) (options : ConversionOptions) : Preparation where
  keepsEmpty := options.keepsEmpty
  loosensComposedItems := policy.loosensComposedItems && options.loosensComposedItems
  expandsItems := policy.expandsItems

/-- The adjustment of models under a policy and options. -/
def modelAdjustment (policy : ConversionPolicy) (options : ConversionOptions) :
    Client.ModelAdjustment where
  flattens := policy.flattensModels
  relaxes := policy.relaxesAlternatives && options.relaxesAlternatives
  marksAliases := policy.marksAliases
  keepsEmpty := options.keepsEmpty
  primitiveAliases := options.primitiveAliases
  escapesLiterals := policy.escapesLiterals

/-- The adjustment of APIs under a policy and options. -/
def apiAdjustment (policy : ConversionPolicy) (options : ConversionOptions) :
    Client.ApiAdjustment where
  removes := if policy.removesParameters then options.removes else []
  detectsMultipart := policy.detectsMultipart
  putsPathFirst := policy.putsPathFirst
  binaryType := policy.binaryType
  stripsLeadingSlash := policy.stripsLeadingSlash

/-- One schema of the components, prepared if it is defined inline. -/
def preparedPart (p : Preparation) (c : Components) (name : String) :
    RefOr Schema → Except ConversionError (RefOr Schema)
  | .ref path => .ok (.ref path)
  | .inline s =>
    match p.prepare? c s with
    | some s => .ok (.inline s)
    | none => .error (.endlessItems name)

/-- **The components with prepared schemas**, under the same names. -/
def preparedComponents (p : Preparation) (c : Components) : Except ConversionError Components := do
  let schemas ← c.schemas.entries.mapM (fun e => return (e.1, ← preparedPart p c e.1 e.2))
  return { c with schemas := .ofEntries schemas }

/-- The models of the components: one for each schema that is defined inline. -/
def models (k : Converter) (adjustment : Client.ModelAdjustment) : List Client.Model :=
  k.components.schemas.entries.filterMap (fun e =>
    e.2.inline?.map (fun s => adjustment.apply (k.model e.1 s)))

/-- The tag of operations that declare none. -/
def defaultTag : String := "default"

/-- The tag that an operation is listed under. -/
def tagOf (op : Client.Call) : String := op.tags.headD defaultTag

/-- **The operations of a document**, by path and then by method. -/
def operations (k : Converter) (paths : OrderedMap PathItem) :
    Except ReferenceError (List Client.Call) := do
  let perPath ← paths.entries.mapM (fun e =>
    e.2.operations.mapM (fun o => k.operation o.1.name e.1 o.2 e.2.parameters))
  return perPath.flatten

/-- Operations under their tags, in the order in which the tags occur. -/
def byTag (ops : List Client.Call) : OrderedMap (List Client.Call) :=
  ops.foldl (fun groups op =>
    groups.put (tagOf op) ((groups.find? (tagOf op)).getD [] ++ [op])) .empty

/-- **The APIs of a list of operations**, one for each tag. -/
def apis (style : Naming.Style) (adjustment : Client.ApiAdjustment)
    (ops : List Client.Call) : List Client.Api :=
  (byTag ops).entries.map (fun e =>
    adjustment.apply { tag := e.1, className := style.api e.1, calls := e.2 })

end Conversion

open Conversion in
/-- **The client of a document.** -/
def Document.toClient (d : Document) (policy : ConversionPolicy) (options : ConversionOptions) :
    Except ConversionError Client := do
  let components ← preparedComponents (preparation policy options) d.componentsOrNone
  -- From here on references lead to the prepared schemas.
  let k : Converter := { components, types := options.types, style := options.style }
  let ops ← (operations k d.paths).mapError .reference
  let apis := apis options.style (apiAdjustment policy options) ops
  return {
    title := d.info.title
    version := d.info.version
    description := d.info.description
    basePath := d.servers.head?.map (·.url)
    models := models k (modelAdjustment policy options)
    apis
    isMultipart := apis.any (·.isMultipart) }

end ClientGen
