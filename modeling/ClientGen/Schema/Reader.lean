import ClientGen.Schema.Basic
import ClientGen.Tree.Expectation
import ClientGen.Tree.Record

/-!
# Reading a schema

A part of a schema is a choice: a reference if the node has a text under
`$ref`, whatever else it holds, and otherwise a schema. So are the `type`
keyword and what an object may hold besides its properties. In a choice anything
is expected, and all of it must be readable.

Reading recurses as deep as the node is nested; `readingDepth` is beyond what
either format lets a document nest.
-/

namespace ClientGen

/-- The reference in a node, if it is one. -/
def referencePath? : Tree → Option String
  | .record entries => do
    (← (Tree.record entries).record? ["$ref"]).required? "$ref" Tree.text?
  | _ => none

/-- **Reads a definition or a reference to one.** -/
def RefOr.read? {α : Type} (read : Tree → Option α) (t : Tree) : Option (RefOr α) := do
  if !t.isReadable then none
  else match referencePath? t with
    | some path => some (.ref path)
    | none => (read t).map .inline

/-- Reads the `type` keyword. -/
def TypeKeyword.read? (t : Tree) : Option TypeKeyword :=
  match t.text? with
  | some name => some (.single name)
  | none => (t.listOf? Tree.text?).map .several

namespace Schema

/-- The field names of a schema, in the order in which they are given by place. -/
def fieldNames : List String :=
  ["type", "format", "title", "description", "default", "nullable", "properties", "required",
   "additionalProperties", "items", "allOf", "oneOf", "anyOf", "enum", "readOnly", "example"]

/-- Reads what an object may hold besides its properties. -/
def Additional.read? (read : Tree → Option Schema) (t : Tree) : Option (Additional Schema) :=
  match t.bool? with
  | some b => some (.allowed b)
  | none => (RefOr.read? read t).map .schema

/-- A bound of the depth to which a schema can be nested in a document. -/
def readingDepth : Nat := 130

/-- Reads a schema nested at most this deep. -/
def readWithin? : Nat → Tree → Option Schema
  | 0, _ => none
  | depth + 1, t => do
    let part := RefOr.read? (readWithin? depth)
    let r ← t.record? fieldNames
    let typeKeyword ← r.optional? "type" TypeKeyword.read?
    let format ← r.optional? "format" Tree.text?
    let title ← r.optional? "title" Tree.text?
    let description ← r.optional? "description" Tree.text?
    let defaultValue ← r.optional? "default" Tree.json?
    let nullable ← r.optional? "nullable" Tree.bool?
    let properties ← r.withDefault? "properties" [] (Tree.entriesOf? part)
    let required ← r.withDefault? "required" [] (Tree.listOf? Tree.text?)
    let additional ← r.optional? "additionalProperties" (Additional.read? (readWithin? depth))
    let items ← r.optional? "items" part
    let allOf ← r.withDefault? "allOf" [] (Tree.listOf? part)
    let oneOf ← r.withDefault? "oneOf" [] (Tree.listOf? part)
    let anyOf ← r.withDefault? "anyOf" [] (Tree.listOf? part)
    let enumValues ← r.withDefault? "enum" [] (Tree.listOf? Tree.json?)
    let readOnly ← r.optional? "readOnly" Tree.bool?
    let sample ← r.optional? "example" Tree.json?
    -- a property that is given twice counts as given last, in the place of the first
    return { typeKeyword, format, title, description, defaultValue, nullable, required,
             enumValues, readOnly, sample, additional, items, allOf, oneOf, anyOf,
             properties := (OrderedMap.ofEntries properties).entries }

/-- **Reads a schema.** -/
def read? (t : Tree) : Option Schema := readWithin? readingDepth t

/-- **Reads a schema or a reference to one.** -/
def readPart? (t : Tree) : Option (RefOr Schema) := RefOr.read? read? t

end Schema

end ClientGen
