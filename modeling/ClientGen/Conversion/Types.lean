import ClientGen.Json.Printer
import ClientGen.Naming.Style
import ClientGen.Reference
import ClientGen.TypeMapping
import ClientGen.Client.Model

/-!
# The type of a schema in the generated code

A reference is written as the class of the model it leads to, except where the
target only renames a primitive type: then the primitive type stands for it. A
schema given inline is written out: containers around the type of their
elements, a composition of one member as that member, any other composition as
an untyped object.

`elementType` is what remains of a type when its containers are taken off.
-/

namespace ClientGen

/-- What a conversion needs to know: the components that references lead to, the
types, and how classes and constants are named. -/
structure Converter where
  components : Components
  types : TypeMapping
  style : Naming.Style

namespace Converter

/-- The type of anything. -/
def anyType (k : Converter) : String := k.types.get "object"

/-- The type of an array of elements of a type. -/
def arrayOf (k : Converter) (element : String) : String :=
  k.types.get "array" ++ "<" ++ element ++ ">"

/-- The type of a map from texts to values of a type. -/
def mapOf (k : Converter) (value : String) : String :=
  k.types.get "map" ++ "<kotlin.String, " ++ value ++ ">"

/-- **The type of a reference.** -/
def referenceType (k : Converter) (path : String) : String :=
  let className := k.style.model (Reference.shortName path)
  match k.components.schemaAt path with
  | .ok target => if target.isTypeAlias then k.types.primitive target else className
  | .error _ => className

mutual

/-- **The type of a part.** -/
def partType (k : Converter) : RefOr Schema → String
  | .ref path => k.referenceType path
  | .inline s => schemaType k s

/-- **The type of a schema given inline.** -/
def schemaType (k : Converter) : Schema → String
  | ⟨facets, properties, additional, items, allOf, oneOf, anyOf⟩ =>
    let s : Schema := ⟨facets, properties, additional, items, allOf, oneOf, anyOf⟩
    match s.kind with
    | .array => k.arrayOf (itemsType k items)
    | .map => k.mapOf (valuesType k additional)
    | .composed => if oneOf.isEmpty && anyOf.isEmpty then soleType k allOf else k.anyType
    | .primitive => k.types.primitive s
    | .object => k.types.primitive s

/-- The type of the items of an array. -/
def itemsType (k : Converter) : Option (RefOr Schema) → String
  | none => k.anyType
  | some part => partType k part

/-- The type of the values of a map. -/
def valuesType (k : Converter) : Option (Schema.Additional Schema) → String
  | some (.schema part) => partType k part
  | some (.allowed _) => k.anyType
  | none => k.anyType

/-- The type of the only member of a composition. -/
def soleType (k : Converter) : List (RefOr Schema) → String
  | [] => k.anyType
  | part :: parts => if parts.isEmpty then partType k part else k.anyType

end

mutual

/-- **The type of the innermost elements** of a part. -/
def elementType (k : Converter) : RefOr Schema → String
  | .ref path => k.referenceType path
  | .inline s => schemaElementType k s

/-- The type of the innermost elements of a schema given inline. -/
def schemaElementType (k : Converter) : Schema → String
  | ⟨facets, properties, additional, items, allOf, oneOf, anyOf⟩ =>
    let s : Schema := ⟨facets, properties, additional, items, allOf, oneOf, anyOf⟩
    match s.kind with
    | .array => itemsElementType k items
    | .map => valuesElementType k additional
    | _ => k.schemaType s

/-- The type of the innermost elements of the items of an array. -/
def itemsElementType (k : Converter) : Option (RefOr Schema) → String
  | none => k.anyType
  | some part => elementType k part

/-- The type of the innermost elements of the values of a map. -/
def valuesElementType (k : Converter) : Option (Schema.Additional Schema) → String
  | some (.schema part) => elementType k part
  | some (.allowed _) => k.anyType
  | none => k.anyType

end

/-- A value as text: a text as it is, anything else in its JSON form. -/
def valueText (value : Json) : String := value.text?.getD value.compact

/-- **The constants of an enumeration** of a type. A `null` among the values is
none of them. -/
def constants (k : Converter) (values : List Json) (dataType : String) : List Client.Constant :=
  (values.filter (fun value => !value.isNull)).map (fun value =>
    { name := k.style.constant (valueText value) dataType
      wireValue := valueText value
      isText := value.isText })

end Converter

end ClientGen
