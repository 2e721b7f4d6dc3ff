import ClientGen.OrderedMap
import ClientGen.Schema.Shape

/-!
# Types of the generated code

A schema that is neither a container nor a composition becomes one type,
looked up under a key that its type and format give (`TypeMapping.schemaKey`).
A run may change the types of dates and of arrays by an option.
-/

namespace ClientGen

/-- The representations of dates and times. -/
inductive DateLibrary where
  | java8
  | threetenbp
  | string
  | millis
deriving DecidableEq, Repr, Inhabited

namespace DateLibrary

/-- The representations, in the order of their declaration. -/
def all : List DateLibrary := [.java8, .threetenbp, .string, .millis]

/-- The option value that selects a representation. -/
def name : DateLibrary → String
  | .java8 => "java8"
  | .threetenbp => "threetenbp"
  | .string => "string"
  | .millis => "millis"

/-- The representation that an option value selects. -/
def ofName? (name : String) : Option DateLibrary := all.find? (fun d => d.name = name)

end DateLibrary

/-- The types of collections. -/
inductive CollectionType where
  | array
  | list
deriving DecidableEq, Repr, Inhabited

/-- The collection type that an option value selects. -/
def CollectionType.ofName? : String → Option CollectionType
  | "array" => some .array
  | "list" => some .list
  | _ => none

/-- **The type of each key.** -/
structure TypeMapping where
  table : OrderedMap String
deriving DecidableEq

namespace TypeMapping

/-- The types unless an option changes them. -/
def defaultEntries : Entries String :=
  [("string", "kotlin.String"), ("boolean", "kotlin.Boolean"), ("integer", "kotlin.Int"),
   ("int32", "kotlin.Int"), ("int64", "kotlin.Long"), ("float", "kotlin.Float"),
   ("double", "kotlin.Double"), ("number", "java.math.BigDecimal"),
   ("date", "java.time.LocalDate"), ("date-time", "java.time.OffsetDateTime"),
   ("uuid", "java.util.UUID"), ("uri", "java.net.URI"), ("binary", "kotlin.ByteArray"),
   ("byte", "kotlin.ByteArray"), ("file", "java.io.File"), ("array", "kotlin.Array"),
   ("list", "kotlin.collections.List"), ("map", "kotlin.collections.Map"),
   ("object", "kotlin.Any")]

/-- The mapping of the default types. -/
def standard : TypeMapping := ⟨.ofEntries defaultEntries⟩

instance : Inhabited TypeMapping := ⟨standard⟩

/-- The type of a key. A key without one has the type of an object. -/
def get (types : TypeMapping) (key : String) : String :=
  ((types.table.find? key).orElse (fun _ => types.table.find? "object")).getD "kotlin.Any"

/-- Changes the type of a key. -/
def set (types : TypeMapping) (key type : String) : TypeMapping := ⟨types.table.put key type⟩

/-- The types of dates and times in a representation. -/
def withDates (types : TypeMapping) : DateLibrary → TypeMapping
  | .java8 => types
  | .threetenbp =>
    (types.set "date" "org.threeten.bp.LocalDate").set "date-time" "org.threeten.bp.LocalDateTime"
  | .string => (types.set "date" "kotlin.String").set "date-time" "kotlin.String"
  | .millis => (types.set "date" "kotlin.String").set "date-time" "kotlin.Long"

/-- The types of dates under an option value; an unknown one changes nothing. -/
def withDateOption (types : TypeMapping) (value : String) : TypeMapping :=
  match DateLibrary.ofName? value with
  | some dates => types.withDates dates
  | none => types

/-- The types of collections. -/
def withCollections (types : TypeMapping) : CollectionType → TypeMapping
  | .array => types
  | .list =>
    (types.set "array" "kotlin.collections.List").set "list" "kotlin.collections.List"

/-- The first of some format names that a schema has, or else the fallback. -/
def formatKey (formats : List String) (fallback : String) (s : Schema) : String :=
  match s.format with
  | some format => if formats.contains format then format else fallback
  | none => fallback

/-- **The key of a schema**: its format where its type knows it, else its type. -/
def schemaKey (s : Schema) : String :=
  match s.typeName? with
  | some "string" => formatKey ["date", "date-time", "uuid", "uri", "binary", "byte"] "string" s
  | some "integer" => formatKey ["int32", "int64"] "integer" s
  | some "number" => formatKey ["float", "double"] "number" s
  | some "boolean" => "boolean"
  | some "file" => "file"
  | some "array" => "array"
  | _ => if s.isMap then "map" else "object"

/-- The type of a schema that is neither a container nor a composition. -/
def primitive (types : TypeMapping) (s : Schema) : String := types.get (schemaKey s)

end TypeMapping

end ClientGen
