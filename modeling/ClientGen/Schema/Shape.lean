import ClientGen.Schema.Basic

/-!
# The shape of a schema

A schema's keywords may be combined at will, but it becomes one kind of type.
`Schema.kind` decides which: an array before a map, a map before a
composition, and only then by the name of the type. `Schema.shape` is the view
of the step that prepares a schema for conversion: which schemas say nothing,
which only rename a primitive type, and which arrays hold a composition.
-/

namespace ClientGen.Schema

/-- Whether other schemas are combined in it. -/
def isComposed (s : Schema) : Bool := !s.allOf.isEmpty || !s.oneOf.isEmpty || !s.anyOf.isEmpty

/-- Whether it is an array: by its type, or by its items if there is no type. -/
def isArray (s : Schema) : Bool :=
  s.typeName? = some "array" || (s.typeKeyword.isNone && s.items.isSome)

/-- Whether it is an object without properties that may hold anything, or any
value of one schema. -/
def isMap (s : Schema) : Bool :=
  let objectLike := match s.typeName? with
    | none => true
    | some name => name = "object"
  let isOpen := match s.additional with
    | some (.schema _) => true
    | some (.allowed b) => b
    | none => false
  objectLike && isOpen && s.properties.isEmpty

/-- The kinds of type that a schema can become. -/
inductive Kind where
  | primitive
  | object
  | array
  | map
  | composed
deriving DecidableEq, Repr, Inhabited

/-- The names of the primitive types. -/
def primitiveNames : List String := ["string", "integer", "number", "boolean", "file"]

/-- **The kind of type that a schema becomes.** -/
def kind (s : Schema) : Kind :=
  if s.isArray then .array
  else if s.isMap then .map
  else if s.isComposed then .composed
  else match s.typeName? with
    | some name => if primitiveNames.contains name then .primitive else .object
    | none => .object

/-- Whether it becomes an array or a map. -/
def isContainer (s : Schema) : Bool := s.kind = .array || s.kind = .map

/-- Whether it only renames a primitive type. -/
def isTypeAlias (s : Schema) : Bool :=
  s.kind = .primitive && s.enumValues.isEmpty && s.properties.isEmpty

/-- The shapes that are told apart before conversion. -/
inductive Shape where
  /-- No type, no properties, and neither a container nor a composition. -/
  | empty
  | composed
  /-- An array whose inline items are a composition. -/
  | arrayOfComposed
  /-- Another name for a primitive type. -/
  | alias
  | normal
deriving DecidableEq, Repr, Inhabited

/-- Whether the items are given inline and are a composition. -/
def hasComposedItems (s : Schema) : Bool :=
  match s.items with
  | some (.inline items) => items.isComposed
  | _ => false

/-- Whether no type is named. -/
def isUntyped (s : Schema) : Bool := s.typeName?.all String.isEmpty

/-- **The shape of a schema.** -/
def shape (s : Schema) : Shape :=
  if s.isArray then (if s.hasComposedItems then .arrayOfComposed else .normal)
  else if s.isMap then .normal
  else if s.isComposed then .composed
  else if s.isUntyped && s.properties.isEmpty then .empty
  else if s.isTypeAlias then .alias
  else .normal

end ClientGen.Schema
