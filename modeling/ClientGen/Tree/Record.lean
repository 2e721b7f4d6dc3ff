import ClientGen.Tree.Basic

/-!
# Reading a record of named fields

A structure of the document is read from a map of field names to values, or
from a list of its field values in order. Fields the structure does not know are
passed over; a field that is given twice is an error.

The three kinds of field differ in what their absence means
(`required?`, `optional?`, `withDefault?`). A list may stop early only before
fields that have a default.
-/

namespace ClientGen

/-- The values found for the fields of a structure. -/
structure Record where
  /-- Whether the fields were named; otherwise they were given by place. -/
  named : Bool
  /-- The value of each field that was given. -/
  slots : Entries Tree
deriving Repr

namespace Tree

/-- **The field a key stands for.** A text is a field name, and a number without a
sign counts the fields from zero; past the last field it is the name of no field. -/
def fieldName? (names : List String) : Tree → Option String
  | .scalar (.text s) => some s
  | .scalar (.natural n) => some (names[n]?.getD "")
  | _ => none

/-- Collects the values of the known fields; a known field may be given once. -/
def slots? (names : List String) : List (Tree × Tree) → Entries Tree → Option (Entries Tree)
  | [], found => some found
  | (k, v) :: es, found => do
    let name ← fieldName? names k
    if names.contains name then
      if (found.find? name).isSome then none else slots? names es (found ++ [(name, v)])
    else slots? names es found

/-- **The record of a node** for a structure with these field names. -/
def record? (names : List String) : Tree → Option Record
  | .record entries => (slots? names entries []).map (⟨true, ·⟩)
  | .list items => if items.length ≤ names.length then some ⟨false, names.zip items⟩ else none
  | .scalar _ => none

end Tree

namespace Record

/-- A field that must be given. -/
def required? {α : Type} (r : Record) (name : String) (read : Tree → Option α) : Option α := do
  read (← r.slots.find? name)

/-- A field whose value may be absent. By place it must still be given. -/
def optional? {α : Type} (r : Record) (name : String) (read : Tree → Option α) :
    Option (Option α) :=
  match r.slots.find? name with
  | some t => t.optional? read
  | none => if r.named then some none else none

/-- A field with a value of its own where it is not given. -/
def withDefault? {α : Type} (r : Record) (name : String) (default : α) (read : Tree → Option α) :
    Option α :=
  match r.slots.find? name with
  | some t => read t
  | none => some default

end Record

end ClientGen
