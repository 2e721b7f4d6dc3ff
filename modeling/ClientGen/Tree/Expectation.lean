import ClientGen.OrderedMap

/-!
# What is expected of a node

A YAML scalar does not say what it is: `1.0` is a text where a text is expected
and a number where anything is, and nothing at all is a list where a list is.
An `Expectation` says what a reader wants of a node and of the nodes inside it.
It also says what the reader passes over: the fields that a record does not name.
-/

namespace ClientGen

/-- **What is expected of a node.** -/
inductive Expectation where
  | text
  | flag
  /-- Any value, with all that is inside it. -/
  | anything
  /-- A value that may be absent. -/
  | optional (value : Expectation)
  | list (items : Expectation)
  /-- A map from texts. -/
  | map (values : Expectation)
  /-- A record of these fields, in the order in which they are given by place. -/
  | record (fields : List (String × Expectation))
deriving Repr, Inhabited

/-- The names of the fields of a record. -/
def Expectation.fieldNames : Expectation → List String
  | .record fields => fields.map Prod.fst
  | _ => []

end ClientGen
