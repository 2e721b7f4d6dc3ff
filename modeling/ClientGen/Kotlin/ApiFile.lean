import ClientGen.Kotlin.Profile
import ClientGen.Kotlin.Source

/-!
# The file of an API

An API is written as an interface with one function for each operation. With a
library whose functions suspend, the function returns its result; otherwise it
carries the annotations of a Retrofit service and returns a call.
-/

namespace ClientGen.Kotlin.ApiFile

open Client (Argument Call Api)

/-- A quoted text behind an annotation. -/
def annotated (mark text : String) : String := mark ++ "(\"" ++ text ++ "\")"

/-- **The annotation of an argument** of a service. A cookie travels in its header,
so its name is only a comment. -/
def argumentAnnotation (multipart : Bool) (q : Argument) : String :=
  match q.kind with
  | .path => annotated "@Path" q.wireName
  | .query => annotated "@Query" q.wireName
  | .header => annotated "@Header" q.wireName
  | .cookie => "@Header(\"Cookie\") /* " ++ q.wireName ++ " */"
  | .body => "@Body"
  | .form => annotated (if multipart then "@Part" else "@Field") q.wireName

/-- **The name of an argument** in a signature. -/
def argumentName (p : Profile) (q : Argument) : String :=
  if q.kind = .header && p.dropsMinus then withoutMinus q.name else q.name

/-- The path of an operation. -/
def endpoint (p : Profile) (call : Call) : String :=
  if p.dropsSlash then Client.withoutLeadingSlash call.path else call.path

/-- An argument in a signature, with the separator behind it. -/
def argumentText (p : Profile) (q : Argument) : String :=
  argumentName p q ++ ": " ++ q.dataType ++ (if q.required then "" else "? = null")
    ++ (if q.hasMore then ", " else "")

/-- The type that an operation returns. -/
def returned (call : Call) : String := call.returnType.getD "kotlin.Unit"

/-- The comment above an operation. -/
def comment (p : Profile) (call : Call) : List String :=
  ["    /**", "     * " ++ commented ((nonempty? call.summary).getD call.id)]
    ++ linesFor call.notes (fun notes => ["     *", "     * " ++ commented notes])
    ++ call.arguments.map (fun q => "     * @param " ++ argumentName p q
      ++ ((nonempty? q.description).map (fun d => " " ++ commented d)).getD "")
    ++ ["     */"]

/-- Whether an operation has arguments of a form. -/
def isForm (call : Call) : Bool := call.arguments.any (·.kind = .form)

/-- A function that suspends. -/
def suspending (p : Profile) (call : Call) : List String :=
  ["    suspend fun " ++ call.nickname ++ "(" ++ Text.join "" (call.arguments.map (argumentText p))
    ++ "): " ++ returned call]

/-- A function of a service. -/
def service (p : Profile) (call : Call) : List String :=
  (if call.isMultipart then ["    @Multipart"] else linesIf (isForm call) ["    @FormUrlEncoded"])
    ++ ["    @" ++ annotated call.method (endpoint p call),
        "    fun " ++ call.nickname ++ "("
          ++ Text.join "" (call.arguments.map (fun q =>
            argumentAnnotation call.isMultipart q ++ " " ++ argumentText p q))
          ++ "): Call<" ++ returned call ++ ">"]

/-- **The function of an operation.** -/
def function (p : Profile) (call : Call) : List String :=
  [""] ++ comment p call
    ++ linesIf call.isDeprecated ["    @Deprecated(message = \"This operation is deprecated.\")"]
    ++ (if p.suspends then suspending p call else service p call)

/-- The imports of the library. -/
def imports (p : Profile) : List String :=
  match p.layout.library with
  | some .multiplatform => ["import io.ktor.client.HttpClient"]
  | some .okhttp4 => ["import okhttp3.OkHttpClient"]
  | _ => ["import retrofit2.Call", "import retrofit2.http.*"]

/-- **The lines of the file of an API.** -/
def lines (p : Profile) (api : Api) : List String :=
  banner p.variant p.layout.apiPackage ++ imports p
    ++ ["import " ++ p.layout.modelPackage ++ ".*", "", "interface " ++ api.className ++ " \x7b"]
    ++ api.calls.flatMap (function p) ++ ["\x7d"]

/-- The file of an API. -/
def file (p : Profile) (api : Api) : SourceFile where
  path := classFile (packageFolder p.sourceFolder p.layout.apiPackage) api.className
  content := Text.join "\n" (lines p api)

end ClientGen.Kotlin.ApiFile
