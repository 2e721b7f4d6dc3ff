import ClientGen.CommandLine.Command
import ClientGen.CommandLine.Failure
import ClientGen.CommandLine.Summary
import ClientGen.Json.Printer
import ClientGen.Run.Loading
import ClientGen.Yaml.Printer

/-!
# Executing a command

A command is a program of calls on the host that ends in an exit code. What it
was asked for is printed; what happens meanwhile is reported, and so is a
failure, after which nothing more is done.
-/

namespace ClientGen.CommandLine

open Host (Program Call)

/-- A program that may fail. -/
abbrev Action := ExceptT Failure Program

namespace Action

/-- The reply to a call. -/
def ask (c : Call) : Action c.Reply := ExceptT.lift (Program.call c)

/-- Prints a line of output. -/
def print (line : String) : Action Unit := ask (.print line)

/-- Prints a line about what happens. -/
def report (line : String) : Action Unit := ask (.report line)

/-- The result of something that may fail with its own kind of error. -/
def ofExcept {α ε : Type} (failure : ε → Failure) (r : Except ε α) : Action α :=
  ExceptT.mk (.done (r.mapError failure))

/-- A program of the library whose result may be an error. -/
def ofProgram {α ε : Type} (failure : ε → Failure) (p : Program (Except ε α)) : Action α :=
  ExceptT.mk (p.bind (fun r => .done (r.mapError failure)))

end Action

/-- A text between the quotes that messages use. -/
def quoted (s : String) : String := "\x60" ++ s ++ "\x60"

/-- The configuration of a project. Its paths are seen from the project directory. -/
def loadProject (project : ProjectChoice) : Action Configuration := do
  let path := Path.join project.directory project.configuration
  match ← Action.ofProgram .ofConfiguration (Configuration.load path) with
  | some c => return c.below project.directory
  | none => throw ⟨path ++ " not found. Run " ++ quoted "swagen init" ++ " to create one.", []⟩

/-- The host project of a choice. -/
def hostProject (project : ProjectChoice) (root : Option String) : HostProject where
  directory := project.directory
  root := root.getD project.directory
  compileTasks := project.compileTasks

/-- **The tasks to run**: the one that is named, or those of the first language. The
tasks of the other write to the same directories. -/
def selectTasks (tasks : List Task) : Option String → Except Failure (List Task)
  | none => .ok (tasks.filter (·.language = .kotlin))
  | some name =>
    let selected := tasks.filter (·.name = name)
    if selected.isEmpty then
      .error ⟨"no task named " ++ quoted name ++ ". Run " ++ quoted "swagen tasks"
        ++ " to list them.", []⟩
    else .ok selected

/-- Runs a task when some switches are set, and returns those that are set
afterwards. -/
def runTask (switches : Switches) (t : Task) : Action Switches := do
  let run ← Action.ofExcept
    (fun e => (Failure.ofConfiguration e).within ("failed to resolve task " ++ t.name)) t.run
  let generator ← Action.ofExcept .ofGenerator (Kotlin.generatorNamed run.generator)
  Action.report ("Generating " ++ run.input ++ " with " ++ run.generator ++ " → " ++ run.output)
  let outcome ← ExceptT.lift (t.execute generator switches)
  let written ← Action.ofExcept
    (fun e => (Failure.ofTask e).within ("task " ++ t.name ++ " failed")) outcome.result
  for path in written do
    Action.report ("  wrote " ++ path)
  Action.report (t.name ++ ": generated " ++ Nat.repr written.length ++ " files")
  return outcome.switches

/-- **Runs the tasks of a project.** -/
def runTasks (project : ProjectChoice) (root task : Option String) : Action Unit := do
  let c ← loadProject project
  if c.runs.isEmpty then
    Action.report ("No runs configured. Add a " ++ quoted "configs" ++ " section to your config.")
  else
    let selected ← Action.ofExcept id (selectTasks (c.tasks (hostProject project root)) task)
    let _ ← selected.foldlM runTask .empty

/-- The lines about a task. -/
def taskLines (t : Task) : List String :=
  [t.name] ++ (if t.hooks.isEmpty then [] else ["  runs before: " ++ Text.join ", " t.hooks])
    ++ match t.run with
      | .ok run => ["  input:  " ++ run.input, "  output: " ++ run.output]
      | .error e => ["  error: " ++ e.message]

/-- **Lists the tasks of a project.** -/
def listTasks (project : ProjectChoice) : Action Unit := do
  let c ← loadProject project
  for line in (c.tasks (hostProject project none)).flatMap taskLines do
    Action.print line

/-- The line about a library of a variant. -/
def libraryLine (v : Kotlin.Variant) (l : Kotlin.Library) : String :=
  "    " ++ l.name ++ (if v.defaultLibrary = some l then " (default)" else "") ++ ": "
    ++ l.description

/-- The lines about a variant. -/
def variantLines (v : Kotlin.Variant) : List String :=
  [v.name ++ " - " ++ v.help]
    ++ (if v.libraries.isEmpty then [] else "  libraries:" :: v.libraries.map (libraryLine v))
    ++ "  options:" :: v.declarations.map (fun d => "    " ++ d.line)

/-- **Lists the variants.** -/
def listVariants (only : Option String) : Action Unit := do
  let variants ← match only with
    | some name => Action.ofExcept .ofGenerator ((Kotlin.Variant.named name).map ([·]))
    | none => pure Kotlin.Variant.all
  for line in variants.flatMap variantLines do
    Action.print line

/-- Reads a document. -/
def readDocument (path : String) : Action Document := do
  match ← Action.ask (.read path) with
  | .error reason => throw ⟨"failed to read " ++ path, [reason]⟩
  | .ok text => Action.ofExcept .ofDocument (Document.read (.ofPath path) text)

/-- The lines about a document that has been read. -/
def documentLines (d : Document) : List String :=
  ["Valid OpenAPI " ++ d.openapi ++ " spec: " ++ d.info.title, "  Version: " ++ d.info.version,
   "  Paths: " ++ Nat.repr d.paths.size]
    ++ match d.components with
      | some c => ["  Schemas: " ++ Nat.repr c.schemas.size]
      | none => []

/-- **Checks a document**: it is read, and converted without any policy. -/
def checkDocument (path : String) : Action Unit := do
  let d ← readDocument path
  for line in documentLines d do
    Action.report line
  let c ← Action.ofExcept .ofConversion (d.toClient {} {})
  Action.report ("  Models: " ++ Nat.repr c.models.length)
  Action.report ("  API groups: " ++ Nat.repr c.apis.length)
  Action.report "Validation successful."

/-- **Shows what a variant makes of a document.** -/
def showClient (path variant : String) (format : TextFormat) : Action Unit := do
  let v ← Action.ofExcept .ofGenerator (Kotlin.Variant.named variant)
  let d ← readDocument path
  let c ← Action.ofExcept .ofConversion (plainClient v d)
  match format with
  | .json => Action.print (summary c).pretty
  | .yaml => Action.print (Yaml.print (summary c))

/-- **Writes the configuration file** that a project starts with. One that is there
is kept unless it is forced. -/
def startProject (force : Bool) : Action Unit := do
  let path := Configuration.fileName
  let present ← Action.ask (.hasPath path)
  if present && !force then
    throw ⟨path ++ " already exists. Use --force to overwrite.", []⟩
  match ← Action.ask (.write path Configuration.initialText) with
  | .error reason => throw ⟨reason, []⟩
  | .ok () => Action.report ("Created " ++ path)

/-- The name and version of the program. -/
def versionText : String := "swagen 0.3.0"

/-- How the program is used. -/
def usageText : String :=
  "Usage: swagen <" ++ Text.join "|" (CommandForm.all.map (·.name)) ++ "> [options]"

/-- What a command does. -/
def Command.action : Command → Action Unit
  | .generate project root task => runTasks project root task
  | .tasks project => listTasks project
  | .list variant => listVariants variant
  | .validate input => checkDocument input
  | .inspect input variant format => showClient input variant format
  | .init force => startProject force
  | .version => Action.print versionText
  | .help => Action.print usageText

/-- The exit code of an action, whose failure is reported. -/
def Action.exitCode (a : Action Unit) : Program Nat :=
  a.run.bind (fun
    | .ok () => .done 0
    | .error f => .ask (.report f.text) (fun _ => .done 1))

/-- **Runs the program** with the words of its command line. -/
def run (words : List String) : Program Nat :=
  match Command.ofWords? words with
  | some command => command.action.exitCode
  | none => .ask (.report usageText) (fun _ => .done 2)

end ClientGen.CommandLine
