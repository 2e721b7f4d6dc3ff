import ClientGen.Conversion.Basic
import ClientGen.Kotlin.Key
import ClientGen.Kotlin.Library
import ClientGen.Setting.Declaration

/-!
# Generator variants

A variant is a generator that can be asked for by name. It is a value: the
policy of its conversion, the libraries it can write for, the settings it
declares and the packages it writes into. Choosing a library – or leaving the
choice to the variant – gives a `Layout`.
-/

namespace ClientGen.Kotlin

/-- Why a generator gives up. -/
inductive GeneratorError where
  | unknownVariant (name : String)
  | unsupportedLibrary (variant library supported : String)
  | invalidSetting (key value allowed : String)
  | conversion (cause : ConversionError)
  /-- A file could not be written out. -/
  | rendering (reason : String)
deriving DecidableEq, Repr, Inhabited

namespace GeneratorError

/-- The text of a generator error. -/
def message : GeneratorError → String
  | .unknownVariant name => "unknown generator `" ++ name ++ "`"
  | .unsupportedLibrary variant library supported =>
    "generator `" ++ variant ++ "` does not support library `" ++ library ++ "` (supported: "
      ++ supported ++ ")"
  | .invalidSetting key value allowed =>
    "`" ++ value ++ "` is an invalid value for option `" ++ key
      ++ "`. Please choose from: " ++ allowed
  | .conversion cause => "transform failed: " ++ cause.message
  | .rendering reason => "render failed: " ++ reason

/-- What lies behind a generator error. -/
def causes : GeneratorError → List String
  | .conversion cause => cause.message :: cause.causes
  | _ => []

end GeneratorError

/-- How the name of the generated artifact is chosen. -/
inductive ArtifactName where
  | fixed (name : String)
  /-- By the library. -/
  | perLibrary
deriving DecidableEq, Repr, Inhabited

/-- **A generator variant.** -/
structure Variant where
  name : String
  /-- What it generates, in one line. -/
  help : String
  libraries : List Library
  defaultLibrary : Option Library
  artifact : ArtifactName
  /-- The last segment of the package of the models. -/
  modelSegment : String
  /-- Whether API classes are generated, unless the models are entities. -/
  writesApis : Bool
  /-- Put after the class name of every model. -/
  modelAfter : String
  /-- Put after the class name of every API. -/
  apiAfter : String
  /-- Whether the infrastructure is generated unless a setting says otherwise. -/
  infrastructure : Bool
  /-- The package of the annotations of entities, if models always are entities. -/
  entityPackage : Option String
  policy : ConversionPolicy
  declarations : List Declaration
deriving DecidableEq, Repr, Inhabited

/-- **Where and what a variant writes** for a chosen library. -/
structure Layout where
  library : Option Library
  artifact : String
  /-- The folder that the layout is for unless a run names one. -/
  folder : String
  package : String
  apiPackage : String
  modelPackage : String
  /-- Whether API classes and their documentation are written. Models and theirs
  always are. -/
  writesApis : Bool
  entityPackage : Option String
deriving DecidableEq, Repr, Inhabited

/-- The package unless a setting names one. -/
def defaultPackage : String := "org.openapitools.client"

/-- The source folder unless a setting names one. -/
def defaultSourceFolder : String := "src/main/kotlin"

namespace Variant

/-- The library of a name, if the variant writes for it. -/
def library? (v : Variant) (name : String) : Option Library :=
  v.libraries.find? (fun l => l.name = name)

/-- The declared setting of a key. -/
def declaration? (v : Variant) (key : String) : Option Declaration :=
  v.declarations.find? (fun d => d.key = key)

/-- Whether a setting is declared. -/
def declares (v : Variant) (key : String) : Bool := (v.declaration? key).isSome

/-- The libraries of the variant as one text. -/
def supported (v : Variant) : String :=
  if v.libraries.isEmpty then "none" else Text.join ", " (v.libraries.map Library.name)

/-- **The library of a request**, or the variant's own choice without one. -/
def choose (v : Variant) : Option String → Except GeneratorError (Option Library)
  | none => .ok v.defaultLibrary
  | some name =>
    match v.library? name with
    | some library => .ok (some library)
    | none => .error (.unsupportedLibrary v.name name v.supported)

/-- The name of the artifact for a library. -/
def artifactFor (v : Variant) (library : Option Library) : String :=
  match v.artifact, library with
  | .fixed name, _ => name
  | .perLibrary, some l => "kotlin-" ++ l.name ++ "-client"
  | .perLibrary, none => "kotlin-client"

/-- The package of the annotations of entities for a library. -/
def entityPackageFor (v : Variant) (library : Option Library) : Option String :=
  (library.bind Library.entityPackage?).orElse (fun _ => v.entityPackage)

/-- **The layout for a library.** Entities have no API classes. -/
def layoutFor (v : Variant) (library : Option Library) : Layout where
  library := library
  artifact := v.artifactFor library
  folder := "generated-code/" ++ v.artifactFor library
  package := defaultPackage
  apiPackage := defaultPackage ++ ".api"
  modelPackage := defaultPackage ++ "." ++ v.modelSegment
  writesApis := v.writesApis && (v.entityPackageFor library).isNone
  entityPackage := v.entityPackageFor library

/-- The layout of a request. -/
def select (v : Variant) (requested : Option String) : Except GeneratorError Layout :=
  (v.choose requested).map v.layoutFor

/-- The type of binary parameters that are streamed. -/
def streamType : String := "io.ktor.client.request.forms.InputProvider"

/-- **The policy for a library**: on several platforms, path parameters come first
and binary ones are streamed. -/
def policyFor (v : Variant) (library : Option Library) : ConversionPolicy :=
  if library = some .multiplatform then
    { v.policy with putsPathFirst := true, binaryType := some streamType }
  else v.policy

end Variant

namespace Variant

/-- The setting for the representation of dates. -/
def dateLibrary : Declaration where
  key := Key.dateLibrary
  description := "Option to change Date library to use (default: java8)."
  fallback := some "java8"
  values := [("threetenbp", "Threetenbp"), ("string", "String"),
    ("java8", "Java 8 native JSR310"), ("millis", "Date Time as Long")]

/-- The setting for the type of collections. -/
def collectionType : Declaration where
  key := Key.collectionType
  description := "Option to change Collection type to use (default: array)."
  fallback := some "array"
  values := [("array", "kotlin.Array"), ("list", "kotlin.collections.List")]

/-- The setting that allows classes without properties. -/
def emptyClasses : Declaration :=
  .ofFlag Key.emptyClasses "Option to allow empty data classes (default: false)." false

/-- The setting for the package. -/
def package : Declaration where
  key := Key.package
  description := "Generated code package name"
  fallback := some defaultPackage

/-- The setting for the package of the models. -/
def modelPackage : Declaration where
  key := Key.modelPackage
  description := "Package for generated models"

/-- The setting for the package of the APIs. -/
def apiPackage : Declaration where
  key := Key.apiPackage
  description := "Package for generated APIs"

/-- The setting for the source folder. -/
def sourceFolder : Declaration where
  key := Key.sourceFolder
  description := "Source folder for generated code"
  fallback := some defaultSourceFolder

/-- The settings of the client generator. -/
def clientDeclarations : List Declaration :=
  [dateLibrary, collectionType,
   { key := Key.infrastructure
     description := "Option to add infrastructure package"
     values := [("infrastructure", "Generate Infrastructure API"), ("api", "Generate API"),
       (Key.dropsSlash, "Option to ignore a starting slash of an endpoint definition")] },
   { key := Key.headers
     description := "Options for header parameters"
     values := [(Key.dropsMinus, "Remove the text minus from header property names")] },
   emptyClasses,
   .ofFlag Key.composedArray ("Option to cast array of composed schema (Array<OneOf...>) to array "
     ++ "of kotlin.Any (Array<kotlin.Any>).") true,
   .ofFlag Key.composedVars
     "Option to mark every variable of a oneOf/anyOf model as not required." false,
   .ofFlag Key.primitiveAlias "Option to generate typealias for primitives." false,
   { key := Key.removedParameters
     description := "Parameters (by wire name) to remove from every API operation." },
   { key := Key.constantCase
     description := "Naming convention for enum constants"
     fallback := some "camelCase"
     values := [("original", "Keep the value as written"), ("camelCase", "camelCase"),
       ("PascalCase", "PascalCase"), ("snake_case", "snake_case"),
       ("UPPERCASE", "UPPER_SNAKE_CASE")] },
   { key := Key.modelBefore, description := "Prefix added to every model name" },
   { key := Key.modelAfter, description := "Suffix added to every model name" },
   { key := Key.apiAfter, description := "Suffix added to every API class name" },
   { key := Key.library
     description := "Library template (sub-template) to use"
     fallback := some Library.retrofit2.name
     values := Library.all.map (fun l => (l.name, l.title)) },
   { key := Key.requestDate
     description := "JVM-Option. Defines in how to handle date-time objects that are used for a "
       ++ "request (as query or parameter)"
     fallback := some "toString"
     values := [("toString", "[DEFAULT] Use the 'toString'-method of the date-time object to "
         ++ "retrieve the related string representation."),
       ("toJson", "Date formater option using a json converter.")] },
   package, apiPackage, modelPackage, sourceFolder]

/-- **The generator of clients** for any of the libraries. -/
def client : Variant where
  name := "kotlin-client-v2"
  help := "Generates a Kotlin classes for specific library."
  libraries := Library.all
  defaultLibrary := some .retrofit2
  artifact := .perLibrary
  modelSegment := "model"
  writesApis := true
  modelAfter := ""
  apiAfter := ""
  infrastructure := false
  entityPackage := none
  policy := {
    loosensComposedItems := true
    expandsItems := true
    flattensModels := true
    relaxesAlternatives := true
    marksAliases := true
    escapesLiterals := true
    removesParameters := true
    detectsMultipart := true }
  declarations := clientDeclarations

/-- **The generator of database entities.** -/
def entities : Variant where
  name := "kotlin-room"
  help := "Generates a Kotlin Room classes."
  libraries := []
  defaultLibrary := none
  artifact := .fixed "kotlin-room"
  modelSegment := "models"
  writesApis := false
  modelAfter := "Entity"
  apiAfter := ""
  infrastructure := false
  entityPackage := Library.room2.entityPackage?
  policy := {}
  declarations :=
    [dateLibrary, collectionType, emptyClasses, package, modelPackage, sourceFolder]

/-- **The generator of Retrofit services.** -/
def services : Variant where
  name := "kotlin-retrofit-client"
  help := "Generates a Kotlin Retrofit client."
  libraries := []
  defaultLibrary := none
  artifact := .fixed "kotlin-retrofit-client"
  modelSegment := "model"
  writesApis := true
  modelAfter := ""
  apiAfter := "Service"
  infrastructure := true
  entityPackage := none
  policy := { stripsLeadingSlash := true }
  declarations :=
    [dateLibrary, .ofFlag Key.infrastructure "Option to add infrastructure package" true,
     package, apiPackage, modelPackage, sourceFolder]

/-- All variants, in the order in which they are listed. -/
def all : List Variant := [client, entities, services]

/-- **The variant of a name.** -/
def named (name : String) : Except GeneratorError Variant :=
  match all.find? (fun v => v.name = name) with
  | some v => .ok v
  | none => .error (.unknownVariant name)

end Variant

end ClientGen.Kotlin
