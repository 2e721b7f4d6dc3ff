import ClientGen.OrderedMap
import ClientGen.Yaml.Token

/-!
# The nodes of a YAML text

The tokens of a text nest as its nodes do, so one function for each kind of
node reads them. A node keeps how it is written: what a scalar is depends on
what is expected in its place.

A node may carry an anchor, and a node may repeat another by naming its anchor.
Since a node can be repeated inside itself, a repeated node is only named by a
number (`Node.repeated`), and a `Graph` holds the nodes of all numbers.

A text holds one document, or none.
-/

namespace ClientGen.Yaml

/-- **A scalar as it is written.** -/
structure Written where
  text : String
  style : Style := .plain
  label : Option String := none
deriving DecidableEq, Repr, Inhabited

/-- **A node of a text.** -/
inductive Node where
  | scalar (written : Written)
  | list (label : Option String) (items : List Node)
  | record (label : Option String) (entries : List (Node × Node))
  /-- The node with the anchor of a number once more. -/
  | repeated (anchor : Nat)
deriving Repr, Inhabited

namespace Node

/-- A node left out: nothing stands where it is due. -/
def leftOut : Node := .scalar { text := "" }

mutual

/-- The number of marks that make up a node: a list and a record have one at each
end, and anything else is one. -/
def size : Node → Nat
  | .scalar _ => 1
  | .repeated _ => 1
  | .list _ items => itemsSize items + 2
  | .record _ entries => entriesSize entries + 2

/-- The size of all items. -/
def itemsSize : List Node → Nat
  | [] => 0
  | n :: ns => size n + itemsSize ns

/-- The size of all keys and values. -/
def entriesSize : List (Node × Node) → Nat
  | [] => 0
  | (k, v) :: es => size k + size v + entriesSize es

end

end Node

/-- **The nodes of a text**: its root, and the nodes with an anchor by the numbers
of their anchors, the latest first. -/
structure Graph where
  root : Node
  anchors : List (Nat × Node) := []
deriving Repr, Inhabited

/-- What every label of the standard set begins with. -/
def standardFront : String := "tag:yaml.org,2002:"

/-- What is left to read, and what was declared before. -/
structure Source where
  tokens : List Token
  /-- The numbers of the anchors by their names. -/
  names : OrderedMap Nat := .empty
  /-- The nodes by the numbers of their anchors, latest first; a node that is still
  being read is not there yet. -/
  nodes : List (Nat × Option Node) := []
  /-- The handles of labels with their expansions. -/
  handles : List (String × String) := []
deriving Inhabited

namespace Source

/-- Passes over one token. -/
def next (s : Source) : Source := { s with tokens := s.tokens.drop 1 }

/-- Whether the next token is one of these. -/
def at_ (s : Source) (ts : List Token) : Bool := s.tokens.head?.any ts.contains

/-- **Declares an anchor** whose node begins here. Its number is that of the names
so far; a name that is declared anew counts once, so the next one gets the same
number, and from then on both stand for the later node. -/
def declare (s : Source) : Option String → Source
  | some name =>
    { s with
      names := s.names.put name s.names.size
      nodes := (s.names.size, none) :: s.nodes }
  | none => s

/-- Gives the innermost node that is still being read its value. -/
def fill (n : Node) : List (Nat × Option Node) → List (Nat × Option Node)
  | [] => []
  | (anchor, some m) :: rest => (anchor, some m) :: fill n rest
  | (anchor, none) :: rest => (anchor, some n) :: rest

/-- Gives an anchor the node that has been read. -/
def settle (s : Source) (anchor : Option String) (n : Node) : Source :=
  if anchor.isSome then { s with nodes := fill n s.nodes } else s

/-- The node that repeats the one with an anchor. -/
def repeated? (s : Source) (name : String) : Option Node := (s.names.find? name).map .repeated

/-- The label that a handle and a suffix write. -/
def expand? (s : Source) (handle suffix : String) : Option String :=
  if handle.isEmpty then some suffix
  else (s.handles.find? (fun h => h.1 = handle)).map (fun h => h.2 ++ suffix)

end Source

/-- The anchor and the label in front of a node. -/
structure Attributes where
  anchor : Option String := none
  label : Option String := none

/-- Reads the anchor and the label in front of a node, in either order. -/
def readAttributes? : Nat → Attributes → Source → Option (Attributes × Source)
  | 0, found, s => some (found, s)
  | fuel + 1, found, s =>
    match s.tokens with
    | .anchor name :: _ =>
      if found.anchor.isSome then some (found, s)
      else readAttributes? fuel { found with anchor := some name } s.next
    | .label handle suffix :: _ =>
      if found.label.isSome then some (found, s)
      else do
        let label ← s.expand? handle suffix
        readAttributes? fuel { found with label := some label } s.next
    | _ => some (found, s)

/-- Where a node stands, which decides what it may be. -/
inductive Place where
  /-- Outside all brackets. -/
  | block
  /-- Outside all brackets, as a key or value: the items of a list need not be
  indented. -/
  | entry
  /-- Inside brackets. -/
  | flow
deriving DecidableEq, Repr

mutual

/-- **Reads a node.** -/
def readNode? (place : Place) : Nat → Source → Option (Node × Source)
  | 0, _ => none
  | fuel + 1, s =>
    match s.tokens with
    | .aliasOf name :: _ => do return (← s.repeated? name, s.next)
    | _ => do
      let (found, s) ← readAttributes? 2 {} s
      let s := s.declare found.anchor
      let (n, s) ← match s.tokens with
        | .scalar text style :: _ => some (.scalar { text, style, label := found.label }, s.next)
        | .flowSequenceStart :: _ => do
          let (items, s) ← readFlowItems? true fuel s.next
          pure (.list found.label items, s)
        | .flowMappingStart :: _ => do
          let (entries, s) ← readFlowEntries? true fuel s.next
          pure (.record found.label entries, s)
        | t :: _ =>
          if t = .blockEntry && place = .entry then do
            let (items, s) ← readBareItems? fuel s
            pure (.list found.label items, s)
          else if t = .blockSequenceStart && place ≠ .flow then do
            let (items, s) ← readItems? fuel s.next
            pure (.list found.label items, s)
          else if t = .blockMappingStart && place ≠ .flow then do
            let (entries, s) ← readEntries? fuel s.next
            pure (.record found.label entries, s)
          -- an anchor or a label by itself is that of an empty scalar
          else if found.anchor.isSome || found.label.isSome then
            some (.scalar { text := "", label := found.label }, s)
          else none
        | [] =>
          if found.anchor.isSome || found.label.isSome then
            some (.scalar { text := "", label := found.label }, s)
          else none
      return (n, s.settle found.anchor n)

/-- Reads a node, unless one of these tokens follows: then it is left out. -/
def readUnless? (place : Place) (stops : List Token) : Nat → Source → Option (Node × Source)
  | 0, _ => none
  | fuel + 1, s => if s.at_ stops then some (.leftOut, s) else readNode? place fuel s

/-- Reads the items of an indented list to its end. -/
def readItems? : Nat → Source → Option (List Node × Source)
  | 0, _ => none
  | fuel + 1, s =>
    match s.tokens with
    | .blockEntry :: _ => do
      let (n, s) ← readUnless? .block [.blockEntry, .blockEnd] fuel s.next
      let (ns, s) ← readItems? fuel s
      return (n :: ns, s)
    | .blockEnd :: _ => some ([], s.next)
    | _ => none

/-- Reads the items of a list that is not indented. -/
def readBareItems? : Nat → Source → Option (List Node × Source)
  | 0, _ => none
  | fuel + 1, s =>
    match s.tokens with
    | .blockEntry :: _ => do
      let (n, s) ← readUnless? .block [.blockEntry, .key, .value, .blockEnd] fuel s.next
      let (ns, s) ← readBareItems? fuel s
      return (n :: ns, s)
    | _ => some ([], s)

/-- Reads the entries of an indented record to its end. -/
def readEntries? : Nat → Source → Option (List (Node × Node) × Source)
  | 0, _ => none
  | fuel + 1, s =>
    match s.tokens with
    | .key :: _ => do
      let (k, s) ← readUnless? .entry [.key, .value, .blockEnd] fuel s.next
      let (v, s) ← readValue? .entry [.key, .value, .blockEnd] fuel s
      let (es, s) ← readEntries? fuel s
      return ((k, v) :: es, s)
    | .blockEnd :: _ => some ([], s.next)
    | _ => none

/-- Reads the value behind a colon; without a colon it is left out. -/
def readValue? (place : Place) (stops : List Token) : Nat → Source → Option (Node × Source)
  | 0, _ => none
  | fuel + 1, s =>
    match s.tokens with
    | .value :: _ => readUnless? place stops fuel s.next
    | _ => some (.leftOut, s)

/-- Reads the items of a list in brackets to its end. A key among them makes a
record of one entry. A question mark without a key takes the token behind it. -/
def readFlowItems? (first : Bool) : Nat → Source → Option (List Node × Source)
  | 0, _ => none
  | fuel + 1, s =>
    if s.at_ [.flowSequenceEnd] then some ([], s.next)
    else if !first && !s.at_ [.flowEntry] then none
    else
      let s := if first then s else s.next
      match s.tokens with
      | .flowSequenceEnd :: _ => some ([], s.next)
      | .key :: _ => do
        let (k, s) ←
          if s.next.at_ [.value, .flowEntry, .flowSequenceEnd] then some (.leftOut, s.next.next)
          else readNode? .flow fuel s.next
        let (v, s) ← readValue? .flow [.flowEntry, .flowSequenceEnd] fuel s
        let (ns, s) ← readFlowItems? false fuel s
        return (.record none [(k, v)] :: ns, s)
      | _ => do
        let (n, s) ← readNode? .flow fuel s
        let (ns, s) ← readFlowItems? false fuel s
        return (n :: ns, s)

/-- Reads the entries of a record in braces to its end. A node without a colon is
a key whose value is left out. -/
def readFlowEntries? (first : Bool) : Nat → Source → Option (List (Node × Node) × Source)
  | 0, _ => none
  | fuel + 1, s =>
    if s.at_ [.flowMappingEnd] then some ([], s.next)
    else if !first && !s.at_ [.flowEntry] then none
    else
      let s := if first then s else s.next
      match s.tokens with
      | .flowMappingEnd :: _ => some ([], s.next)
      | .key :: _ => do
        let (k, s) ← readUnless? .flow [.value, .flowEntry, .flowMappingEnd] fuel s.next
        let (v, s) ← readValue? .flow [.flowEntry, .flowMappingEnd] fuel s
        let (es, s) ← readFlowEntries? false fuel s
        return ((k, v) :: es, s)
      | _ => do
        let (k, s) ← readNode? .flow fuel s
        let (es, s) ← readFlowEntries? false fuel s
        return ((k, .leftOut) :: es, s)

end

/-- Reads the directives in front of a document. The version is given at most
once and is 1.1 or 1.2; a handle is declared at most once. -/
def readDirectives? (versioned : Bool) (handles : List (String × String)) :
    List Token → Option (List (String × String) × List Token)
  | .version major minor :: ts =>
    if versioned || major ≠ 1 || (minor ≠ 1 && minor ≠ 2) then none
    else readDirectives? true handles ts
  | .handle name expansion :: ts =>
    if handles.any (fun h => h.1 = name) then none
    else readDirectives? versioned ((name, expansion) :: handles) ts
  | ts => some (handles, ts)

/-- The handles that are known without a declaration, unless one was made. -/
def withStandardHandles (handles : List (String × String)) : List (String × String) :=
  handles ++ [("!", "!"), ("!!", standardFront)]

/-- Whether a document begins with a directive. -/
def startsWithDirective : List Token → Bool
  | .version _ _ :: _ => true
  | .handle _ _ :: _ => true
  | _ => false

/-- The graph of a document, whose root may be left out, and the tokens behind it. -/
def readRoot? (handles : List (String × String)) (bare : Bool) (tokens : List Token) :
    Option (Graph × List Token) :=
  let isLeftOut := !bare && (tokens.isEmpty || startsWithDirective tokens
    || tokens.head? = some .documentStart || tokens.head? = some .documentEnd)
  if isLeftOut then some ({ root := .leftOut }, tokens)
  else do
    let source : Source := { tokens, handles := withStandardHandles handles }
    let (root, s) ← readNode? .block (4 * tokens.length + 4) source
    let anchors := s.nodes.filterMap (fun a => a.2.map (a.1, ·))
    return ({ root, anchors }, s.tokens)

/-- **The nodes of a YAML text** of at most one document. -/
def Graph.ofText? (text : String) : Option Graph := do
  let tokens ← tokens? text
  if tokens.isEmpty then some { root := .leftOut }
  else
    let (handles, rest) ← readDirectives? false [] tokens
    let marked := rest.head? = some .documentStart
    if !marked && startsWithDirective tokens then none
    else
      let (graph, rest) ← readRoot? handles (!marked) (if marked then rest.drop 1 else rest)
      if (rest.dropWhile (· = .documentEnd)).isEmpty then some graph else none

end ClientGen.Yaml
