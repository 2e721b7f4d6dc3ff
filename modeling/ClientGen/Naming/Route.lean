import ClientGen.Naming.Identifier
import ClientGen.Text.Search
import ClientGen.Text.Upper

/-!
# The name of an operation that has none

An operation without an identifier is named from its method and path: a verb
for the method, then the path's fixed segments in Pascal case. A path that
ends in a parameter addresses one element, so its last fixed segment is put in
the singular and `GET` reads `get` instead of `list`.
-/

namespace ClientGen.Naming

/-- The nonempty segments of a path. -/
def pathSegments (path : String) : List String :=
  (Text.split path '/').filter (fun s => !s.isEmpty)

/-- Whether a path segment is a parameter: it stands between braces. -/
def isParameterSegment (segment : String) : Bool :=
  Text.startsWith segment "\x7b" && Text.endsWith segment "\x7d"

/-- The fixed segments of a path. -/
def fixedSegments (path : String) : List String :=
  (pathSegments path).filter (fun s => !isParameterSegment s)

/-- Whether the last segment of a path is a parameter. -/
def endsWithParameter (path : String) : Bool :=
  (pathSegments path).getLast?.any isParameterSegment

/-- A word without its last characters. -/
def dropEnd (n : Nat) (word : String) : String :=
  String.ofList (word.toList.take (word.length - n))

/-- **The singular of a plural, by its ending.** Lengths are measured in bytes
of UTF-8, so one letter beyond ASCII before the ending is enough. -/
def singular (word : String) : String :=
  if Text.endsWith word "ies" && word.utf8ByteSize > 3 then dropEnd 3 word ++ "y"
  else if Text.endsWith word "ses" || Text.endsWith word "xes" || Text.endsWith word "zes" then
    dropEnd 2 word
  else if Text.endsWith word "s" && !Text.endsWith word "ss" && word.utf8ByteSize > 1 then
    dropEnd 1 word
  else word

/-- The verb of a method, in either case. -/
def methodVerb (method : String) (single : Bool) : String :=
  match Text.upperCase method with
  | "GET" => if single then "get" else "list"
  | "POST" => "create"
  | "PUT" => "update"
  | "DELETE" => "delete"
  | "PATCH" => "patch"
  | "OPTIONS" => "options"
  | "HEAD" => "head"
  | _ => "call"

/-- A path segment as part of a name. -/
def segmentName (segment : String) : String :=
  String.ofList (Text.pascalCase (sanitize segment).toList)

/-- **The name of an operation without identifier**: `GET /users` is
`listUsers`, `GET /users/{id}` is `getUser`. -/
def routeName (method path : String) : String :=
  let single := endsWithParameter path
  let segments := fixedSegments path
  let named := match segments.reverse with
    | [] => []
    | last :: before => (if single then singular last else last) :: before
  methodVerb method single ++ Text.join "" (named.reverse.map segmentName)

end ClientGen.Naming
