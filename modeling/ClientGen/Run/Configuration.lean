import ClientGen.Path
import ClientGen.Setting.Basic
import ClientGen.Tree.Record
import ClientGen.Yaml.Reader

/-!
# Configurations

A configuration lists runs and what they have in common. Every field may be
left out. A run may choose a library of its own and overrides settings one by
one.
-/

namespace ClientGen

/-- **One run** as it is configured. -/
structure RunDescriptor where
  /-- The document, below the source path. -/
  input : String := ""
  /-- The folder below the output path; the output path itself, if absent. -/
  folder : Option String := none
  library : Option String := none
  settings : Settings := .empty
deriving Inhabited

/-- **A configuration.** -/
structure Configuration where
  /-- The directory of the documents. -/
  sourcePath : String := "./"
  /-- The directory in which the runs have their folders. -/
  outputPath : String := "./"
  /-- The generator of every run. -/
  generator : Option String := none
  /-- The library of runs that do not choose one. -/
  library : Option String := none
  settings : Settings := .empty
  /-- The switches that are set while a run generates. -/
  switches : OrderedMap String := .empty
  runs : List RunDescriptor := []
  /-- Whether generation hooks into the compile tasks of the host. -/
  hooks : Bool := true
  /-- Whether there are Java tasks even where Kotlin is compiled. -/
  forcesJava : Bool := false
deriving Inhabited

/-- What is expected of a configured run. -/
def RunDescriptor.expected : Expectation :=
  .record [("inputFileName", .text), ("outputFolderName", .optional .text),
    ("library", .optional .text), ("additionalProperties", .map .anything)]

/-- Reads a configured run. -/
def RunDescriptor.read? (t : Tree) : Option RunDescriptor := do
  let r ← t.record? expected.fieldNames
  let input ← r.withDefault? "inputFileName" "" Tree.text?
  let folder ← r.withDefault? "outputFolderName" none (Tree.optional? Tree.text?)
  let library ← r.withDefault? "library" none (Tree.optional? Tree.text?)
  let settings ← r.withDefault? "additionalProperties" .empty (Tree.mapOf? Setting.read?)
  return { input, folder, library, settings }

namespace Configuration

/-- What is expected of a configuration. -/
def expected : Expectation :=
  .record [("sourcePath", .text), ("outputPath", .text), ("generatorName", .optional .text),
    ("library", .optional .text), ("additionalProperties", .map .anything),
    ("globalProperties", .map .text), ("configs", .list RunDescriptor.expected),
    ("autoHook", .flag), ("forceJava", .flag)]

/-- **Reads a configuration.** -/
def read? (t : Tree) : Option Configuration := do
  let r ← t.record? expected.fieldNames
  let sourcePath ← r.withDefault? "sourcePath" "./" Tree.text?
  let outputPath ← r.withDefault? "outputPath" "./" Tree.text?
  let generator ← r.withDefault? "generatorName" none (Tree.optional? Tree.text?)
  let library ← r.withDefault? "library" none (Tree.optional? Tree.text?)
  let settings ← r.withDefault? "additionalProperties" .empty (Tree.mapOf? Setting.read?)
  let switches ← r.withDefault? "globalProperties" .empty (Tree.mapOf? Tree.text?)
  let runs ← r.withDefault? "configs" [] (Tree.listOf? RunDescriptor.read?)
  let hooks ← r.withDefault? "autoHook" true Tree.bool?
  let forcesJava ← r.withDefault? "forceJava" false Tree.bool?
  return { sourcePath, outputPath, generator, library, settings, switches, runs, hooks,
           forcesJava }

/-- Reads the text of a configuration file, which is YAML. -/
def ofText? (text : String) : Option Configuration := (Yaml.read? expected text).bind read?

/-- The name of the configuration file. -/
def fileName : String := ".swagen.yaml"

/-- **The configuration file that a project starts with.** -/
def initialText : String :=
  Text.join "\n"
    ["# swagen configuration",
     "sourcePath: ./api             # directory holding the OpenAPI specs",
     "outputPath: ./build/generated # each run writes to <outputPath>/<outputFolderName>",
     "generatorName: kotlin-client-v2",
     "# library: jvm-retrofit2      # multiplatform | jvm-okhttp4 | jvm-retrofit2 | room | room2",
     "",
     "autoHook: true      # hook generation into compileKotlin / compileJava",
     "forceJava: false    # also register Java tasks in Kotlin projects",
     "",
     "additionalProperties:",
     "  dateLibrary: java8            # java8 | threetenbp | string | millis",
     "  collectionType: array         # array | list",
     "  enumPropertyNaming: camelCase # original | camelCase | PascalCase | snake_case | UPPERCASE",
     "  # removeOperationParams: [X-Request-Id]",
     "",
     "globalProperties: \x7b\x7d",
     "  # models: \"true\"",
     "  # apis: \"false\"",
     "",
     "configs:",
     "  - inputFileName: petstore.yaml",
     "    outputFolderName: petstore",
     "    # library: room2",
     "    # additionalProperties:",
     "    #   dateLibrary: string",
     ""]

/-- Adds a path to the front of those that are relative. -/
def below (c : Configuration) (directory : String) : Configuration :=
  let place (path : String) : String :=
    if Path.isAbsolute path then path else Path.join directory path
  { c with sourcePath := place c.sourcePath, outputPath := place c.outputPath }

end Configuration

end ClientGen
