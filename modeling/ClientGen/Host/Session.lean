import ClientGen.Host.Program
import ClientGen.Host.Reason
import ClientGen.Text.Search

/-!
# A session in memory

A host with directories, as a program meets it that is started in one of them:
paths are followed segment by segment, a call fails where an operating system
would refuse it, and what is printed is kept.

A `Place` is where a path leads, as the names on the way from the root.
-/

namespace ClientGen.Host

/-- The names on the way from the root. -/
abbrev Place := List String

/-- **A session.** -/
structure Session where
  /-- Where relative paths start. -/
  start : Place := []
  /-- The directories apart from the root. -/
  directories : List Place := []
  files : List (Place × String) := []
  /-- The lines of output, latest first. -/
  printed : List String := []
  /-- The lines about what happens, latest first. -/
  reported : List String := []
deriving Repr, Inhabited

/-- What can be at a place. -/
inductive Session.Node where
  | directory
  | file (content : String)
deriving DecidableEq, Repr

namespace Session

/-- What is at a place. -/
def node? (s : Session) (place : Place) : Option Node :=
  if place.isEmpty || s.directories.contains place then some .directory
  else (s.files.find? (fun f => f.1 = place)).map (fun f => .file f.2)

/-- Where a segment leads from a directory. -/
def descend (place : Place) (segment : String) : Place :=
  if segment = "" || segment = "." then place
  else if segment = ".." then place.dropLast
  else place ++ [segment]

/-- Where a path starts. -/
def origin (s : Session) (path : String) : Place := if Text.startsWith path "/" then [] else s.start

/-- Follows a segment, which only a directory has. -/
def follow (s : Session) (place : Place) (segment : String) : Except String Place :=
  match s.node? place with
  | some .directory => .ok (descend place segment)
  | some (.file _) => .error Reason.notDirectory
  | none => .error Reason.missing

/-- **Where a path leads.** Nothing need be there, but what is on the way must be. -/
def locate (s : Session) (path : String) : Except String Place :=
  if path.isEmpty then .error Reason.missing
  else (Text.split path '/').foldlM s.follow (s.origin path)

/-- Whether something is at a path. -/
def hasPath (s : Session) (path : String) : Bool :=
  match s.locate path with
  | .ok place => (s.node? place).isSome
  | .error _ => false

/-- The content of the file at a path. -/
def read (s : Session) (path : String) : Except String String := do
  match s.node? (← s.locate path) with
  | some (.file content) => .ok content
  | some .directory => .error Reason.isDirectory
  | none => .error Reason.missing

/-- The session without a directory and everything in it. -/
def without (s : Session) (place : Place) : Session :=
  { s with
    directories := s.directories.filter (fun d => !place.isPrefixOf d)
    files := s.files.filter (fun f => !place.isPrefixOf f.1) }

/-- Removes a directory, if there is one. -/
def remove (s : Session) (path : String) : Except String Session :=
  match s.locate path with
  | .error reason => if reason = Reason.missing then .ok s else .error reason
  | .ok place =>
    match s.node? place with
    | some .directory => .ok (s.without place)
    | some (.file _) => .error Reason.notDirectory
    | none => .ok s

/-- Follows a segment, making a directory where nothing is. -/
def make (s : Session × Place) (segment : String) : Except String (Session × Place) :=
  let place := descend s.2 segment
  match s.1.node? s.2, s.1.node? place with
  | some (.file _), _ => .error Reason.notDirectory
  | _, none => .ok ({ s.1 with directories := place :: s.1.directories }, place)
  | _, some _ => .ok (s.1, place)

/-- Makes a directory and those around it. -/
def makeAll (s : Session) (path : String) : Except String Session := do
  if path.isEmpty then return s
  let (s, place) ← (Text.split path '/').foldlM make (s, s.origin path)
  match s.node? place with
  | some (.file _) => .error Reason.occupied
  | _ => .ok s

/-- Writes a file, which only a directory has. -/
def write (s : Session) (path content : String) : Except String Session := do
  let place ← s.locate path
  match s.node? place with
  | some .directory => .error Reason.isDirectory
  | _ => .ok { s with files := (place, content) :: s.files.filter (fun f => f.1 ≠ place) }

/-- A change that may fail, as a reply with the session afterwards. -/
def changed (s : Session) : Except String Session → Except String Unit × Session
  | .ok s => (.ok (), s)
  | .error reason => (.error reason, s)

/-- **Answers a call.** -/
def answer (s : Session) : (c : Call) → c.Reply × Session
  | .hasPath path => (s.hasPath path, s)
  | .read path => (s.read path, s)
  | .removeDirectory path => s.changed (s.remove path)
  | .makeDirectory path => s.changed (s.makeAll path)
  | .write path content => s.changed (s.write path content)
  | .print text => ((), { s with printed := text :: s.printed })
  | .report text => ((), { s with reported := text :: s.reported })

/-- Adds a file together with the directories around it. -/
def place (s : Session) (path content : String) : Session :=
  let place := (Text.split path '/').foldl descend (s.origin path)
  let around := (List.range place.length).map (fun n => place.take n)
  { s with
    directories := around.filter (fun d => !s.directories.contains d) ++ s.directories
    files := (place, content) :: s.files.filter (fun f => f.1 ≠ place) }

/-- The path of a place below the start, if it is there. -/
def path? (s : Session) (place : Place) : Option String :=
  if s.start.isPrefixOf place then some (Text.join "/" (place.drop s.start.length)) else none

/-- The files below the start, by their paths. -/
def listing (s : Session) : List (String × String) :=
  s.files.filterMap (fun f => (s.path? f.1).map (·, f.2))

/-- Runs a program in the session. -/
def run {α : Type} (s : Session) (p : Program α) : α × Session :=
  (p.runWith (m := StateM Session) (fun c => modifyGet (·.answer c))).run s

end Session

end ClientGen.Host
