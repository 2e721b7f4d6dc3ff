import ClientGen.Schema.Basic
import ClientGen.Json.Printer

/-!
# A schema as JSON

The keywords are written in a fixed order; one that is absent, or an empty list
or map, is left out. A reference is an object with the one field `$ref`.
-/

namespace ClientGen

namespace Json

/-- A field that is written if its value is present. -/
def field? {α : Type} (name : String) (write : α → Json) : Option α → List (String × Json)
  | some value => [(name, write value)]
  | none => []

/-- A field with a list, written if the list is not empty. -/
def listField (name : String) (items : List Json) : List (String × Json) :=
  if items.isEmpty then [] else [(name, .list items)]

/-- A field with a map, written if the map is not empty. -/
def mapField (name : String) (fields : List (String × Json)) : List (String × Json) :=
  if fields.isEmpty then [] else [(name, .object fields)]

end Json

/-- The JSON form of a reference. -/
def referenceJson (path : String) : Json := .object [("$ref", .text path)]

/-- The JSON form of a definition or a reference to one. -/
def RefOr.toJson {α : Type} (write : α → Json) : RefOr α → Json
  | .ref path => referenceJson path
  | .inline value => write value

/-- The JSON form of the `type` keyword. -/
def TypeKeyword.toJson : TypeKeyword → Json
  | .single name => .text name
  | .several names => .list (names.map .text)

namespace Schema

mutual

/-- **The JSON form of a schema.** -/
def toJson : Schema → Json
  | ⟨f, properties, additional, items, allOf, oneOf, anyOf⟩ =>
    .object <|
      Json.field? "type" TypeKeyword.toJson f.typeKeyword
      ++ Json.field? "format" .text f.format
      ++ Json.field? "title" .text f.title
      ++ Json.field? "description" .text f.description
      ++ Json.field? "default" id f.defaultValue
      ++ Json.field? "nullable" .bool f.nullable
      ++ Json.mapField "properties" (propertiesJson properties)
      ++ Json.listField "required" (f.required.map .text)
      ++ additionalJson additional
      ++ itemsJson items
      ++ Json.listField "allOf" (membersJson allOf)
      ++ Json.listField "oneOf" (membersJson oneOf)
      ++ Json.listField "anyOf" (membersJson anyOf)
      ++ Json.listField "enum" f.enumValues
      ++ Json.field? "readOnly" .bool f.readOnly
      ++ Json.field? "example" id f.sample

/-- The JSON form of a part of a schema. -/
def partJson : RefOr Schema → Json
  | .ref path => referenceJson path
  | .inline s => toJson s

/-- The JSON forms of the properties, by name. -/
def propertiesJson : List (String × RefOr Schema) → List (String × Json)
  | [] => []
  | p :: ps => propertyJson p :: propertiesJson ps

/-- The JSON form of one property, under its name. -/
def propertyJson : String × RefOr Schema → String × Json
  | (name, part) => (name, partJson part)

/-- The field for what an object may hold besides its properties. -/
def additionalJson : Option (Additional Schema) → List (String × Json)
  | none => []
  | some (.allowed b) => [("additionalProperties", .bool b)]
  | some (.schema part) => [("additionalProperties", partJson part)]

/-- The field for the items of an array. -/
def itemsJson : Option (RefOr Schema) → List (String × Json)
  | none => []
  | some part => [("items", partJson part)]

/-- The JSON forms of the members of a composition. -/
def membersJson : List (RefOr Schema) → List Json
  | [] => []
  | part :: parts => partJson part :: membersJson parts

end

end Schema

end ClientGen
