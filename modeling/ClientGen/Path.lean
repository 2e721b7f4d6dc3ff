import ClientGen.Text.Search

/-!
# Paths

A path is a text. Nothing of it is normalized when paths are joined, but two
paths are the same place if their components agree (`Path.same`): repeated and
trailing slashes and inner `.` segments do not count. A `..` segment does, since
what it means depends on the files that are there.
-/

namespace ClientGen.Path

/-- A component of a path. -/
inductive Component where
  | root
  /-- The segment `.` at the front. -/
  | here
  | segment (name : String)
deriving DecidableEq, Repr

/-- Whether a path starts at the root. -/
def isAbsolute (path : String) : Bool := Text.startsWith path "/"

/-- Whether a segment counts: it is neither empty nor `.`. -/
def counts (segment : String) : Bool := segment ≠ "" && segment ≠ "."

/-- What a path begins with before its segments: the root, the segment `.`, or
nothing; and its segments behind that. -/
def headAndSegments (path : String) : List Component × List String :=
  let segments := Text.split path '/'
  if isAbsolute path then ([.root], segments.drop 1)
  else if segments.head? = some "." then ([.here], segments.drop 1)
  else ([], segments)

/-- **The components of a path.** -/
def components (path : String) : List Component :=
  let (head, segments) := headAndSegments path
  head ++ (segments.filter counts).map .segment

/-- Whether two paths have the same components. -/
def same (a b : String) : Bool := components a = components b

/-- Whether a path lies at or below a directory, by their components. -/
def isBelow (path directory : String) : Bool :=
  (components directory).isPrefixOf (components path)

/-- **A path seen from another**: an absolute one stands for itself. -/
def join (base path : String) : String :=
  if isAbsolute path || base.isEmpty then path
  else if Text.endsWith base "/" then base ++ path
  else base ++ "/" ++ path

/-- The segments up to the last one that counts. -/
def trimmed (segments : List String) : List String :=
  (segments.reverse.dropWhile (fun s => !counts s)).reverse

/-- **The directory around a path**, as it is written. The root and the empty path
have none. -/
def parent? (path : String) : Option String :=
  let (head, segments) := headAndSegments path
  let written := trimmed segments
  let text (segments : List String) : String :=
    match head with
    | [.root] => "/" ++ Text.join "/" segments
    | [.here] => Text.join "/" ("." :: segments)
    | _ => Text.join "/" segments
  if written.isEmpty then (if head = [.here] then some "" else none)
  else some (text (trimmed written.dropLast))

/-- The last segment of a path, if it is a name. -/
def fileName? (path : String) : Option String :=
  match (components path).getLast? with
  | some (.segment name) => if name = ".." then none else some name
  | _ => none

/-- **The extension of a path**: what follows the last point of its file name,
unless the name begins there. -/
def extension? (path : String) : Option String := do
  let name := (← fileName? path).toList
  let extension := Text.afterLast '.' name
  if extension.length + 1 < name.length then some (String.ofList extension) else none

end ClientGen.Path
