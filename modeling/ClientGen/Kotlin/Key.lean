/-!
# The keys of the settings

The settings that a generator reads or writes, by their keys.
-/

namespace ClientGen.Kotlin.Key

/-- The representation of dates. -/
def dateLibrary : String := "dateLibrary"

/-- The type of collections. -/
def collectionType : String := "collectionType"

/-- Whether the infrastructure is generated. -/
def infrastructure : String := "generateInfrastructure"

/-- What happens to header parameters. -/
def headers : String := "headers"

/-- Whether classes without properties are allowed. -/
def emptyClasses : String := "emptyDataClasses"

/-- Whether items that are a composition become untyped objects. -/
def composedArray : String := "composedArrayAsAny"

/-- Whether the properties of models with alternatives are optional. -/
def composedVars : String := "composedVarsNotRequired"

/-- Whether other names of primitive types are written as type aliases. -/
def primitiveAlias : String := "generatePrimitiveTypeAlias"

/-- The wire names of parameters to leave out. -/
def removedParameters : String := "removeOperationParams"

/-- Whether the word for a minus sign is dropped from header parameters. -/
def dropsMinus : String := "removeMinusTextInHeaderProperty"

/-- Whether the slash in front of a path is dropped. -/
def dropsSlash : String := "ignoreEndpointStartingSlash"

/-- The case of enumeration constants. -/
def constantCase : String := "enumPropertyNaming"

/-- What goes before the class name of a model. -/
def modelBefore : String := "modelNamePrefix"

/-- What goes after the class name of a model. -/
def modelAfter : String := "modelNameSuffix"

/-- What goes after the class name of an API. -/
def apiAfter : String := "apiNameSuffix"

/-- How dates are written in requests. -/
def requestDate : String := "requestDateConverter"

/-- The library. -/
def library : String := "library"

/-- The package. -/
def package : String := "packageName"

/-- The package of the APIs. -/
def apiPackage : String := "apiPackage"

/-- The package of the models. -/
def modelPackage : String := "modelPackage"

/-- The source folder. -/
def sourceFolder : String := "sourceFolder"

/-- The name of the artifact. -/
def artifact : String := "artifactId"

/-- Whether collections are lists. -/
def isList : String := "isList"

end ClientGen.Kotlin.Key
