import ClientGen.Document.Reader
import ClientGen.Json.Reader
import ClientGen.Path
import ClientGen.Yaml.Reader

/-!
# Documents as files

A document is a JSON or a YAML text. A file with the extension `json` is the
former, any other the latter. Only documents of version 3 of the format are
accepted.
-/

namespace ClientGen

/-- The formats of a document text. -/
inductive TextFormat where
  | json
  | yaml
deriving DecidableEq, Repr, Inhabited

namespace TextFormat

/-- The format of a file, by its path. -/
def ofPath (path : String) : TextFormat :=
  if Path.extension? path = some "json" then .json else .yaml

/-- Reads a text of a format for an expectation. A JSON text is what it is, whatever
is expected. -/
def read? (e : Expectation) : TextFormat → String → Option Tree
  | .json, text => Json.read? text
  | .yaml, text => Yaml.read? e text

end TextFormat

/-- Why a text is no document. -/
inductive DocumentError where
  /-- The text does not have its format, or the fields are not those of a
  document. -/
  | malformed (format : TextFormat)
  | unsupportedVersion (version : String)
deriving DecidableEq, Repr, Inhabited

/-- The text of a document error. -/
def DocumentError.message : DocumentError → String
  | .malformed .json => "failed to parse JSON"
  | .malformed .yaml => "failed to parse YAML"
  | .unsupportedVersion version => "unsupported OpenAPI version: " ++ version

/-- **Reads a document** from a text of a format. -/
def Document.read (format : TextFormat) (text : String) : Except DocumentError Document :=
  match (format.read? Document.expected text).bind Document.ofTree? with
  | none => .error (.malformed format)
  | some d =>
    if Text.startsWith d.openapi "3." then .ok d else .error (.unsupportedVersion d.openapi)

end ClientGen
