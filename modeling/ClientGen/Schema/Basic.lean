import ClientGen.Json.Basic
import ClientGen.OrderedMap

/-!
# Schemas

A schema describes the values of a type: by its keywords, and by the schemas of
its parts. A part is given inline or by reference, and so are parameters,
request bodies and responses elsewhere in a document (`RefOr`).

The keywords that hold no schema are the `Facets`; the rest of a `Schema` are
its parts. Recursion over a schema therefore meets only the parts.
-/

namespace ClientGen

/-- **A definition, or a reference to one.** -/
inductive RefOr (α : Type) where
  | ref (path : String)
  | inline (value : α)
deriving DecidableEq, Repr, Inhabited

namespace RefOr

variable {α : Type}

/-- The definition, if it is given inline. -/
def inline? : RefOr α → Option α
  | .ref _ => none
  | .inline value => some value

/-- The text of the reference, if it is one. -/
def path? : RefOr α → Option String
  | .ref path => some path
  | .inline _ => none

end RefOr

/-- The `type` keyword: one name, or several. -/
inductive TypeKeyword where
  | single (name : String)
  | several (names : List String)
deriving DecidableEq, Repr, Inhabited

/-- The type that counts: of several names the first that is not `null`. -/
def TypeKeyword.primary? : TypeKeyword → Option String
  | .single name => some name
  | .several names => names.find? (· ≠ "null")

namespace Schema

/-- The keywords of a schema that hold no schema themselves. -/
structure Facets where
  /-- The names of the type. -/
  typeKeyword : Option TypeKeyword := none
  format : Option String := none
  title : Option String := none
  description : Option String := none
  defaultValue : Option Json := none
  nullable : Option Bool := none
  /-- The names of the properties that must be present. -/
  required : List String := []
  /-- The only values allowed, if there are any here. -/
  enumValues : List Json := []
  readOnly : Option Bool := none
  sample : Option Json := none
deriving Repr, Inhabited

/-- What an object may hold beside its properties: anything or nothing, or
values of one schema. -/
inductive Additional (α : Type) where
  | allowed (b : Bool)
  | schema (s : RefOr α)
deriving Repr, Inhabited

end Schema

/-- **A schema**: its facets and its parts. -/
structure Schema extends Schema.Facets where
  /-- The properties of an object, by name. -/
  properties : List (String × RefOr Schema) := []
  /-- What an object may hold besides. -/
  additional : Option (Schema.Additional Schema) := none
  /-- The elements of an array. -/
  items : Option (RefOr Schema) := none
  /-- Schemas that all hold together. -/
  allOf : List (RefOr Schema) := []
  /-- Schemas of which one holds. -/
  oneOf : List (RefOr Schema) := []
  /-- Schemas of which at least one holds. -/
  anyOf : List (RefOr Schema) := []
deriving Repr, Inhabited

namespace Schema

/-- The schema with nothing but a type. -/
def ofType (name : String) : Schema := { typeKeyword := some (.single name) }

/-- The object schema without properties, which any value satisfies. -/
def untypedObject : Schema := ofType "object"

/-- The name of the type that counts, if there is one. -/
def typeName? (s : Schema) : Option String := s.typeKeyword.bind TypeKeyword.primary?

/-- Replaces the type, of one name or several, by one name. -/
def setType (s : Schema) (name : String) : Schema :=
  { s with typeKeyword := some (.single name) }

/-- Whether a property must be present. -/
def isRequired (s : Schema) (property : String) : Bool := s.required.contains property

/-- The schema of the values of a map, if one is given. -/
def mapValues? (s : Schema) : Option (RefOr Schema) :=
  match s.additional with
  | some (.schema values) => some values
  | _ => none

end Schema

end ClientGen
