import ClientGen.Json.Basic
import ClientGen.OrderedMap

/-!
# What a document text is read into

JSON and YAML texts are read into one kind of tree, and everything that is
taken from a document is taken from such a tree. In JSON a node says itself what
it is. In YAML that depends on what is expected in its place, so a YAML text is
read for an `Expectation`, and the tree holds what this finds in it.

An **unreadable** scalar is well formed but denotes nothing: a number out of
range, a lone half of a surrogate pair, a nesting too deep. It is an error to
read it and none to pass over it.

Where the document allows a *choice* – a reference or a definition, a flag or
a schema – all of the node must be readable (`Tree.isReadable`), whatever is
taken from it then.
-/

namespace ClientGen

/-- The value of a scalar. -/
inductive Scalar where
  | null
  | bool (b : Bool)
  /-- A whole number without a minus sign. -/
  | natural (n : Nat)
  /-- A whole number with a minus sign, which may be zero, by its magnitude. -/
  | negative (n : Nat)
  | float (x : Decimal.Binary64)
  | text (s : String)
  | unreadable
deriving DecidableEq, Repr, Inhabited

/-- **A node of a document text.** -/
inductive Tree where
  | scalar (value : Scalar)
  | list (items : List Tree)
  | record (entries : List (Tree × Tree))
deriving Repr, Inhabited

namespace Tree

/-- The node of a text. -/
def ofText (s : String) : Tree := .scalar (.text s)

/-- A node that denotes nothing. -/
def unreadable : Tree := .scalar .unreadable

mutual

/-- **Whether all of a node can be read.** -/
def isReadable : Tree → Bool
  | .scalar value => value ≠ .unreadable
  | .list items => areReadable items
  | .record entries => hasReadableEntries entries

/-- Whether every item can be read. -/
def areReadable : List Tree → Bool
  | [] => true
  | t :: ts => isReadable t && areReadable ts

/-- Whether every key and value can be read. -/
def hasReadableEntries : List (Tree × Tree) → Bool
  | [] => true
  | (k, v) :: es => isReadable k && isReadable v && hasReadableEntries es

end

/-- The node as a text. -/
def text? : Tree → Option String
  | .scalar (.text s) => some s
  | _ => none

/-- The node as a flag. -/
def bool? : Tree → Option Bool
  | .scalar (.bool b) => some b
  | _ => none

/-- The items of a list. -/
def items? : Tree → Option (List Tree)
  | .list items => some items
  | _ => none

/-- The entries of a map from texts. -/
def entries? : Tree → Option (List (String × Tree))
  | .record entries => entries.mapM (fun e => return (← e.1.text?, e.2))
  | _ => none

/-- The items of a list, each read by `read`. -/
def listOf? {α : Type} (read : Tree → Option α) (t : Tree) : Option (List α) := do
  (← t.items?).mapM read

/-- The entries of a map, each value read by `read`. A repeated key keeps its
first place and takes its last value. -/
def entriesOf? {α : Type} (read : Tree → Option α) (t : Tree) : Option (Entries α) := do
  (← t.entries?).mapM (fun e => return (e.1, ← read e.2))

/-- The map of a node, each value read by `read`. -/
def mapOf? {α : Type} (read : Tree → Option α) (t : Tree) : Option (OrderedMap α) :=
  (t.entriesOf? read).map OrderedMap.ofEntries

/-- A value that may be absent: `null` is absence. -/
def optional? {α : Type} (read : Tree → Option α) : Tree → Option (Option α)
  | .scalar .null => some none
  | t => (read t).map some

mutual

/-- **The JSON value of a node.** A number that is not finite becomes `null`,
and keys of an object must be texts. -/
def json? : Tree → Option Json
  | .scalar .null => some .null
  | .scalar (.bool b) => some (.bool b)
  | .scalar (.natural n) => some (.number (.integer n))
  | .scalar (.negative n) => some (.number (.integer (-(n : Int))))
  | .scalar (.float x) => some (if x.isFinite then .number (.float x) else .null)
  | .scalar (.text s) => some (.text s)
  | .scalar .unreadable => none
  | .list items => (jsonItems? items).map .list
  | .record entries => (jsonFields? entries).map Json.ofFields

/-- `json?` on every item. -/
def jsonItems? : List Tree → Option (List Json)
  | [] => some []
  | t :: ts => do return (← json? t) :: (← jsonItems? ts)

/-- `json?` on every value, under its key as a text. -/
def jsonFields? : List (Tree × Tree) → Option (List (String × Json))
  | [] => some []
  | (k, v) :: es => do return (← text? k, ← json? v) :: (← jsonFields? es)

end

end Tree

end ClientGen
