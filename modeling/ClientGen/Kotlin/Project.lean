import ClientGen.Kotlin.Documentation

/-!
# The project around the code

Besides models and APIs a run writes an overview, the build files, and – if the
profile wants it – an infrastructure package.
-/

namespace ClientGen.Kotlin.Project

open Client (Model Call Api)

/-- The models that have a file: all but those that only rename a primitive
type. -/
def writtenModels (c : Client) : List Model := c.models.filter (fun m => !m.isAlias)

/-- The row of an operation in the overview. -/
def operationRow (api : Api) (call : Call) : String :=
  let name := fileStem api.className
  "| *" ++ name ++ "* | " ++ Documentation.operationCells ("docs/" ++ name) call

/-- The part of the overview about the operations. -/
def operationOverview (c : Client) : List String :=
  ["", "<a name=\"documentation-for-api-endpoints\"></a>", "## Documentation for API Endpoints",
   "", Documentation.servedAt c.basePath, "", "| Class | Method | HTTP request | Description |",
   "| ----- | ------ | ------------ | ----------- |"]
    ++ c.apis.flatMap (fun api => api.calls.map (operationRow api))

/-- The row of a model in the overview. -/
def modelRow (p : Profile) (m : Model) : String :=
  let name := fileStem m.className
  " - [" ++ p.layout.modelPackage ++ "." ++ name ++ "](docs/" ++ name ++ ".md)"

/-- The part of the overview about the models. -/
def modelOverview (p : Profile) (c : Client) : List String :=
  ["", "<a name=\"documentation-for-models\"></a>", "## Documentation for Models", ""]
    ++ (if (writtenModels c).isEmpty then ["No models defined."]
      else (writtenModels c).map (modelRow p))

/-- **The overview.** -/
def readme (p : Profile) (c : Client) : SourceFile where
  path := "README.md"
  content := unlines (["# " ++ p.layout.artifact, ""]
    ++ linesFor c.description (fun d => [d, ""])
    ++ ["Generated from *" ++ c.title ++ "* version " ++ Documentation.code c.version ++ " by "
          ++ p.variant ++ ".", "",
        "## Requires", "", "* Kotlin 1.3.41", "* Gradle 4.9", "",
        "## Build", "", "```", "gradle wrapper", "./gradlew check assemble", "```", "",
        "## Features/Implementation Notes", "",
        "* Supports JSON inputs/outputs, File and Form-encoded data."]
    ++ (match p.layout.library with
      | some l => ["* Library: " ++ Documentation.code l.name ++ "."]
      | none => [])
    ++ linesIf c.isMultipart ["* Some operations upload multipart form data."]
    ++ linesIf (p.layout.writesApis && !c.apis.isEmpty) (operationOverview c)
    ++ modelOverview p c)

/-- The dependencies of the generated code. -/
def dependencies (p : Profile) : List String :=
  let retrofit :=
    ["    compile \"com.squareup.retrofit2:retrofit:2.6.2\"",
     "    compile \"com.squareup.retrofit2:converter-moshi:2.6.2\"",
     "    compile \"com.squareup.moshi:moshi-kotlin:1.8.0\""]
  let entities :=
    ["    compile \"androidx.room:room-runtime:2.2.0\"",
     "    kapt \"androidx.room:room-compiler:2.2.0\"",
     "    compile \"com.squareup.moshi:moshi-kotlin:1.9.2\""]
  match p.layout.library with
  | some .multiplatform =>
    ["    compile \"io.ktor:ktor-client-core:1.2.4\"",
     "    compile \"io.ktor:ktor-client-serialization:1.2.4\"",
     "    compile \"org.jetbrains.kotlinx:kotlinx-serialization-runtime:0.12.0\""]
  | some .okhttp4 =>
    ["    compile \"com.squareup.okhttp3:okhttp:4.2.0\"",
     "    compile \"com.squareup.moshi:moshi-kotlin:1.8.0\""]
  | some .room =>
    ["    compile \"android.arch.persistence.room:runtime:1.1.1\"",
     "    kapt \"android.arch.persistence.room:compiler:1.1.1\"",
     "    compile \"com.squareup.moshi:moshi-kotlin:1.9.2\""]
  | some .room2 => entities
  | _ => if p.layout.entityPackage.isSome then entities else retrofit

/-- **The build file.** -/
def buildFile (p : Profile) (c : Client) : SourceFile where
  path := "build.gradle"
  content := Text.join "\n"
    (["group '" ++ p.layout.package ++ "'", "version '" ++ c.version ++ "'", "",
      "buildscript \x7b", "    ext.kotlin_version = '1.3.41'", "", "    repositories \x7b",
      "        mavenCentral()", "    \x7d", "    dependencies \x7b",
      "        classpath \"org.jetbrains.kotlin:kotlin-gradle-plugin:$kotlin_version\""]
    ++ linesIf p.isMultiplatform
      ["        classpath \"org.jetbrains.kotlin:kotlin-serialization:$kotlin_version\""]
    ++ ["    \x7d", "\x7d", "", "apply plugin: 'kotlin'",
        if p.isMultiplatform then "apply plugin: 'kotlinx-serialization'"
        else "apply plugin: 'kotlin-kapt'",
        "", "repositories \x7b", "    mavenCentral()", "\x7d", "", "dependencies \x7b",
        "    compile \"org.jetbrains.kotlin:kotlin-stdlib-jdk8:$kotlin_version\""]
    ++ dependencies p
    ++ linesIf p.needsThreeten ["    compile \"org.threeten:threetenbp:1.3.8\""]
    ++ ["    testCompile \"io.kotlintest:kotlintest-runner-junit5:3.1.0\"", "\x7d"])

/-- The file that names the project. -/
def projectFile (p : Profile) : SourceFile where
  path := "settings.gradle"
  content := "rootProject.name = '" ++ p.layout.artifact ++ "'"

/-- The folder of the infrastructure. -/
def infrastructureFolder (p : Profile) : String :=
  packageFolder p.sourceFolder p.layout.package ++ "/infrastructure"

/-- The functions that write collections into requests. -/
def abstractions (p : Profile) : SourceFile where
  path := infrastructureFolder p ++ "/ApiAbstractions.kt"
  content := Text.join "\n"
    ["package " ++ p.layout.package ++ ".infrastructure", "",
     "typealias MultiValueMap = MutableMap<String, List<String>>", "",
     "fun collectionDelimiter(collectionFormat: String) = when (collectionFormat) \x7b",
     "    \"csv\" -> \",\"", "    \"tsv\" -> \"\\t\"", "    \"pipes\" -> \"|\"",
     "    \"ssv\" -> \" \"", "    else -> \"\"", "\x7d", "",
     "val defaultMultiValueConverter: (item: Any?) -> String = \x7b item -> \"$item\" \x7d", "",
     "fun <T : Any?> toMultiValue(items: Array<T>, collectionFormat: String, map: (item: T) -> "
       ++ "String = defaultMultiValueConverter): List<String> =",
     "    toMultiValue(items.asIterable(), collectionFormat, map)", "",
     "fun <T : Any?> toMultiValue(items: Iterable<T>, collectionFormat: String, map: (item: T) -> "
       ++ "String = defaultMultiValueConverter): List<String> \x7b",
     "    return when (collectionFormat) \x7b", "        \"multi\" -> items.map(map)",
     "        else -> listOf(items.joinToString(separator = "
       ++ "collectionDelimiter(collectionFormat), transform = map))",
     "    \x7d", "\x7d"]

/-- The object that reads and writes JSON. -/
def serializer (p : Profile) : SourceFile where
  path := infrastructureFolder p ++ "/Serializer.kt"
  content := unlines
    (["package " ++ p.layout.package ++ ".infrastructure", ""]
    ++ (if p.isMultiplatform then
        ["import kotlinx.serialization.json.Json",
         "import kotlinx.serialization.json.JsonConfiguration", "", "object Serializer \x7b",
         "    @JvmStatic",
         "    val json: Json = Json(JsonConfiguration.Stable.copy(strictMode = false))", "\x7d"]
      else
        ["import com.squareup.moshi.Moshi",
         "import com.squareup.moshi.kotlin.reflect.KotlinJsonAdapterFactory", "",
         "object Serializer \x7b", "    @JvmStatic", "    val moshi: Moshi = Moshi.Builder()",
         "        .add(KotlinJsonAdapterFactory())", "        .build()", "\x7d"]))

/-- **The files of the project.** -/
def files (p : Profile) (c : Client) : List SourceFile :=
  [readme p c, buildFile p c, projectFile p]
    ++ (if p.infrastructure then [abstractions p, serializer p] else [])

end ClientGen.Kotlin.Project
