import ClientGen.Tree.Expectation
import ClientGen.Yaml.Node
import ClientGen.Yaml.Resolution

/-!
# Reading YAML

What a node is read as depends on what is expected in its place (`Reading.node`).
A text is taken from any scalar as it is written, a flag from one without
quotes; a list or a map may be left out; and only where anything is expected
does the spelling or the label of a scalar decide. A label of the application
has no meaning there, so a node with one cannot be read.

What is passed over may be anything. Of the rest, no more than `depthLimit`
lists and records may be inside one another, and repeated nodes may be entered
`repetitionLimit` times as often as the text has marks, so that a short text
cannot stand for an endless one.
-/

namespace ClientGen.Yaml

/-- Lists and records may be nested this deep. -/
def depthLimit : Nat := 128

/-- How often repeated nodes may be entered for each mark of the text. -/
def repetitionLimit : Nat := 100

/-- The label of a type of the standard set. -/
def standardLabel (type : String) : String := standardFront ++ type

/-- Whether a label is one of the application. -/
def isForeign (label : Option String) : Bool := label.any (fun l => l.toList.head? = some '!')

namespace Written

/-- Whether the scalar is nothing at all, but for a label. -/
def isLeftOut (w : Written) : Bool := w.style = .plain && w.text.isEmpty

/-- **The scalar where a flag is expected**: without quotes, or as a literal block
that is labelled as one. -/
def flag? (w : Written) : Option Bool :=
  if w.style = .plain || (w.style = .literal && w.label = some (standardLabel "bool")) then
    flagOf? w.text
  else none

/-- **Whether the scalar is absence**, where a value may be absent. In quotes or
with a label it is present, except that the label of `null` must be true. -/
def isAbsent? (w : Written) : Option Bool :=
  if w.style ≠ .plain then some false
  else match w.label with
    | none => some (w.text.isEmpty || isNullWord w.text)
    | some label =>
      if label = standardLabel "null" then (if isNullWord w.text then some true else none)
      else some false

/-- The value under a label. One that is neither of the application nor known makes
a text. -/
def labelled? (label text : String) : Option Scalar :=
  if label = standardLabel "bool" then (flagOf? text).map .bool
  else if label = standardLabel "int" then integerOf? text
  else if label = standardLabel "float" then (floatOf? text).map .float
  else if label = standardLabel "null" then (if isNullWord text then some .null else none)
  else if isForeign label then none
  else some (.text text)

/-- **The scalar where anything is expected.** -/
def value? (w : Written) : Option Scalar :=
  match w.label with
  | some label => labelled? label w.text
  | none => some (if w.style = .plain then resolve w.text else .text w.text)

end Written

/-- Reading the nodes of a graph: the state is how often repeated nodes may still be
entered. -/
abbrev Reading := StateT Nat Option

namespace Reading

/-- Enters a repeated node. -/
def enter (anchors : List (Nat × Node)) (anchor : Nat) : Reading Node := do
  match ← get with
  | 0 => failure
  | left + 1 =>
    set left
    match anchors.find? (fun a => a.1 = anchor) with
    | some (_, node) => return node
    | none => failure

/-- The node itself, or the one it repeats. -/
def resolve (anchors : List (Nat × Node)) : Node → Reading Node
  | .repeated anchor => enter anchors anchor
  | node => pure node

/-- A result that may be missing. -/
def ofOption {α : Type} (result : Option α) : Reading α := result

/-- The text of a key. -/
def key (anchors : List (Nat × Node)) (node : Node) : Reading String := do
  match ← resolve anchors node with
  | .scalar w => return w.text
  | _ => failure

/-- The entries of a record whose keys name its fields, the others left out. -/
def fields (anchors : List (Nat × Node)) (expected : List (String × Expectation))
    (value : Expectation → Node → Reading Tree) :
    List (Node × Node) → Reading (List (Tree × Tree))
  | [] => return []
  | (k, v) :: entries => do
    let name ← key anchors k
    match Entries.find? expected name with
    | some e =>
      let t ← value e v
      return (.ofText name, t) :: (← fields anchors expected value entries)
    | none => fields anchors expected value entries

/-- What is found in a list. `inside` reads what is inside it. -/
def list (inside : Expectation → Node → Reading Tree) (label : Option String)
    (items : List Node) : Expectation → Reading Tree
  | .anything =>
    if isForeign label then failure
    else return .list (← items.mapM (inside .anything))
  | .list e => return .list (← items.mapM (inside e))
  | _ => failure

/-- What is found in a record. `inside` reads what is inside it. -/
def record (anchors : List (Nat × Node)) (inside : Expectation → Node → Reading Tree)
    (label : Option String) (entries : List (Node × Node)) : Expectation → Reading Tree
  | .anything =>
    if isForeign label then failure
    else return .record (← entries.mapM (fun e =>
      return (← inside .anything e.1, ← inside .anything e.2)))
  | .map e => return .record (← entries.mapM (fun entry =>
      return (.ofText (← key anchors entry.1), ← inside e entry.2)))
  | .record expected => return .record (← fields anchors expected inside entries)
  | _ => failure

/-- What is found in a scalar. -/
def scalar (w : Written) : Expectation → Reading Tree
  | .text => return .ofText w.text
  | .flag => do return .scalar (.bool (← ofOption w.flag?))
  | .anything => do
    let value ← ofOption w.value?
    if value = .unreadable then failure else return .scalar value
  | .list _ => if w.isLeftOut then return .list [] else failure
  | .map _ => if w.isLeftOut then return .record [] else failure
  | .record _ => if w.isLeftOut then return .record [] else failure
  | .optional _ => failure

/-- What is found in a node that repeats no other. -/
def plainNode (anchors : List (Nat × Node))
    (inside : Option (Expectation → Node → Reading Tree)) (e : Expectation) :
    Node → Reading Tree
  | .scalar w => scalar w e
  | .list label items => do list (← ofOption inside) label items e
  | .record label entries => do record anchors (← ofOption inside) label entries e
  | .repeated _ => failure

/-- What is found in a node. `inside` reads what is inside a list or a record, if one
may be here. -/
def nodeWith (anchors : List (Nat × Node))
    (inside : Option (Expectation → Node → Reading Tree)) (e : Expectation) (node : Node) :
    Reading Tree := do
  let node ← resolve anchors node
  match e, node with
  | .optional e, .scalar w =>
    if ← ofOption w.isAbsent? then return .scalar .null
    else plainNode anchors inside e (.scalar w)
  | .optional e, node => plainNode anchors inside e node
  | e, node => plainNode anchors inside e node

/-- **What is found in a node** nested at most this deep. -/
def node (anchors : List (Nat × Node)) : Nat → Expectation → Node → Reading Tree
  | 0 => nodeWith anchors none
  | depth + 1 => nodeWith anchors (some (node anchors depth))

end Reading

/-- **What is found in a graph.** -/
def Graph.read? (g : Graph) (e : Expectation) : Option Tree :=
  ((Reading.node g.anchors depthLimit e g.root).run' (repetitionLimit * g.root.size))

/-- **Reads a YAML text** for an expectation. -/
def read? (e : Expectation) (text : String) : Option Tree := do (← Graph.ofText? text).read? e

end ClientGen.Yaml
