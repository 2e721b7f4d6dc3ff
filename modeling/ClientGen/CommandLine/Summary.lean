import ClientGen.Conversion.Basic
import ClientGen.Kotlin.Variant

/-!
# Summaries

What a generator makes of a document is shown as a value: the models with the
names of their properties, and the APIs with their calls.
-/

namespace ClientGen.CommandLine

/-- What kind of type a model is written as. -/
def modelKind (m : Client.Model) : String :=
  if m.isEnum then "enum"
  else if m.isAlias then "alias"
  else if m.hasAlternatives then "composed"
  else "class"

/-- The summary of a model. -/
def modelSummary (m : Client.Model) : Json :=
  .ofFields [("name", .text m.className), ("kind", .text (modelKind m)),
    ("vars", .list (m.views.all.map (fun p => .text p.name)))]

/-- The summary of a call. -/
def callSummary (c : Client.Call) : Json :=
  .ofFields [("name", .text c.nickname), ("method", .text c.method), ("path", .text c.path),
    ("multipart", .bool c.isMultipart),
    ("returns", match c.returnType with
      | some type => .text type
      | none => .null)]

/-- The summary of an API. -/
def apiSummary (a : Client.Api) : Json :=
  .ofFields [("class", .text a.className), ("tag", .text a.tag),
    ("operations", .list (a.calls.map callSummary))]

/-- **The summary of a client.** -/
def summary (c : Client) : Json :=
  .ofFields [("info", .ofFields [("title", .text c.title), ("version", .text c.version)]),
    ("models", .list (c.models.map modelSummary)), ("apis", .list (c.apis.map apiSummary))]

/-- The client that a variant makes of a document without any settings. -/
def plainClient (v : Kotlin.Variant) (d : Document) : Except ConversionError Client :=
  d.toClient (v.policyFor v.defaultLibrary)
    { style := { modelAfter := v.modelAfter, apiAfter := v.apiAfter } }

end ClientGen.CommandLine
