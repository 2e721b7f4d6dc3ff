import ClientGen.Kotlin.Profile
import ClientGen.Kotlin.Source

/-!
# The file of a model

A model is written as an enumeration, as a type alias, or as a data class with
all its properties. Enumeration constants and properties carry their wire names
in annotations, in the manner of the library; a data class is an entity where
models are entities.
-/

namespace ClientGen.Kotlin.ModelFile

open Client (Constant Property Model)

/-- The annotation that gives a declaration its name on the wire. -/
def nameAnnotation (p : Profile) (wireName : String) : String :=
  (if p.isMultiplatform then "@SerialName(value = \"" else "@Json(name = \"") ++ wireName ++ "\")"

/-- The separator behind an item, if another follows. -/
def separated {α : Type} (write : α → String → List String) (between last : String) :
    List α → List String
  | [] => []
  | [a] => write a last
  | a :: b :: rest => write a between ++ separated write between last (b :: rest)

/-- The value of a constant in the generated code. -/
def constantValue (c : Constant) : String :=
  if c.isText then "\"" ++ c.wireValue ++ "\"" else c.wireValue

/-- The lines of a constant, with what stands behind it. -/
def constantLines (p : Profile) (c : Constant) (behind : String) : List String :=
  ["    " ++ nameAnnotation p c.wireValue,
   "    " ++ c.name ++ "(" ++ constantValue c ++ ")" ++ behind]

/-- The annotation for the library of several platforms. -/
def serializable (p : Profile) : List String := linesIf p.isMultiplatform ["@Serializable"]

/-- The data type of a model, as it is printed; a missing one is printed as such. -/
def printedType (m : Model) : String := m.dataType.getD "none"

/-- **An enumeration.** -/
def enumeration (p : Profile) (m : Model) : List String :=
  serializable p
    ++ ["enum class " ++ m.className ++ "(val value: " ++ printedType m ++ ") \x7b"]
    ++ separated (constantLines p) "," ";" m.constants ++ ["\x7d"]

/-- **A type alias.** -/
def typeAlias (m : Model) : List String := ["typealias " ++ m.className ++ " = " ++ printedType m]

/-- What makes a type optional. -/
def optionalMark (required : Bool) : String := if required then "" else "? = null"

/-- The wire name of a property inside an annotation. -/
def wireLiteral (v : Property) : String := (nonempty? v.literal).getD v.wireName

/-- The lines of a property, with what stands behind it. -/
def propertyLines (p : Profile) (v : Property) (behind : String) : List String :=
  linesFor v.description (fun d => ["    /* " ++ commented d ++ " */"])
    ++ linesIf v.isEnum
      ["    /* One of: " ++ Text.join ", " (v.constants.map (·.wireValue)) ++ " */"]
    ++ ["    " ++ nameAnnotation p (wireLiteral v),
        "    val " ++ v.name ++ ": " ++ v.dataType ++ optionalMark v.required ++ behind]

/-- **A data class.** -/
def dataClass (p : Profile) (m : Model) : List String :=
  serializable p
    ++ linesIf p.layout.entityPackage.isSome ["@Entity(tableName = \"" ++ m.name ++ "\")"]
    ++ ["data class " ++ m.className ++ " ("]
    ++ separated (propertyLines p) "," "" m.views.all ++ [")"]

/-- The imports of the annotations. -/
def imports (p : Profile) (m : Model) : List String :=
  (if p.isMultiplatform then
      ["import kotlinx.serialization.SerialName", "import kotlinx.serialization.Serializable"]
    else linesIf (m.isEnum || !m.writtenAsAlias) ["import com.squareup.moshi.Json"])
    ++ (match p.layout.entityPackage with
      | some package =>
        linesIf (!m.writtenAsAlias && !m.isEnum) ["import " ++ package ++ ".Entity"]
      | none => [])

/-- The declaration of a model. -/
def declaration (p : Profile) (m : Model) : List String :=
  if m.isEnum then enumeration p m
  else if m.writtenAsAlias then typeAlias m
  else dataClass p m

/-- **The lines of the file of a model.** -/
def lines (p : Profile) (m : Model) : List String :=
  banner p.variant p.layout.modelPackage ++ imports p m ++ [""]
    ++ linesFor m.description (fun d => ["/**", " * " ++ commented d, " */"])
    ++ declaration p m

/-- The file of a model. -/
def file (p : Profile) (m : Model) : SourceFile where
  path := classFile (packageFolder p.sourceFolder p.layout.modelPackage) m.className
  content := unlines (lines p m)

end ClientGen.Kotlin.ModelFile
