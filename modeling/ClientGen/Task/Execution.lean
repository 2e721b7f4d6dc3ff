import ClientGen.Document.Source
import ClientGen.Host.Program
import ClientGen.Task.Basic

/-!
# Executing a task

A task replaces its output directory by what its generator gives. It refuses to
do so if that is a directory of the host project. Otherwise it removes the
directory, reads the document, generates, and writes the files in order; the
first failure ends it.

While the document is read and the files are generated and written, the
switches of the run are set.
-/

namespace ClientGen

/-- Why a task fails. -/
inductive TaskError where
  | configuration (cause : ConfigurationError)
  /-- The output directory is a directory of the host project. -/
  | unsafeOutput (path : String)
  /-- A call on the host failed. -/
  | host (path reason : String)
  | document (cause : DocumentError)
  | generator (cause : Kotlin.GeneratorError)
deriving DecidableEq, Repr, Inhabited

namespace TaskError

/-- The text of a task error. -/
def message : TaskError → String
  | .configuration cause => cause.message
  | .unsafeOutput path =>
    "refusing to delete " ++ path ++ ": the output directory equals a project directory"
  | .host path reason => "I/O error on " ++ path ++ ": " ++ reason
  | .document cause => cause.message
  | .generator cause => cause.message

/-- What lies behind a task error. -/
def causes : TaskError → List String
  | .configuration cause => cause.causes
  | .unsafeOutput _ => []
  | .host _ reason => [reason]
  | .document _ => []
  | .generator cause => cause.causes

end TaskError

/-- What a task asks of its generator. -/
structure GenerationRequest where
  document : Document
  run : ResolvedRun
  /-- The switches that are set. -/
  switches : Switches

/-- **The outcome of a task.** -/
structure TaskOutcome where
  /-- The paths written, in order. -/
  result : Except TaskError (List String)
  /-- The switches that are set afterwards. -/
  switches : Switches
  /-- What the generator was asked for, if it was asked. -/
  request : Option GenerationRequest := none

namespace Task

open Host (Program Call)

/-- Makes the directory around a path, if there is one. -/
def makeParent (path : String) : Program (Except TaskError Unit) :=
  match Path.parent? path with
  | some parent => .ask (.makeDirectory parent) (fun
    | .ok () => .done (.ok ())
    | .error reason => .done (.error (.host parent reason)))
  | none => .done (.ok ())

/-- Writes a file and the directories around it. -/
def writeFile (path content : String) : Program (Except TaskError Unit) :=
  (makeParent path).bind (fun
    | .error e => .done (.error e)
    | .ok () => .ask (.write path content) (fun
      | .ok () => .done (.ok ())
      | .error reason => .done (.error (.host path reason))))

/-- **Writes the files of a run** into its output directory, in order. -/
def writeFiles (output : String) :
    List Kotlin.SourceFile → Program (Except TaskError (List String))
  | [] => .done (.ok [])
  | file :: files =>
    let path := Path.join output file.path
    (writeFile path file.content).bind (fun
      | .error e => .done (.error e)
      | .ok () => (writeFiles output files).bind (fun rest => .done (rest.map (path :: ·))))

/-- Whether a directory is one that must not be removed. -/
def isGuarded (t : Task) (path : String) : Bool :=
  Path.same path t.directory || Path.same path t.root

/-- The files that a generator gives for the text of a document. -/
def generateFrom (generator : Kotlin.Generator) (run : ResolvedRun) (switches : Switches)
    (text : String) :
    Except TaskError (GenerationRequest × Except TaskError (List Kotlin.SourceFile)) :=
  match Document.read (.ofPath run.input) text with
  | .error e => .error (.document e)
  | .ok document =>
    .ok ({ document, run, switches },
      (generator document run switches).mapError .generator)

/-- Generates and writes, with the switches of the run set. -/
def regenerate (generator : Kotlin.Generator) (run : ResolvedRun) (switches : Switches) :
    Program (Except TaskError (List String) × Option GenerationRequest) :=
  .ask (.read run.input) (fun
    | .error reason => .done (.error (.host run.input reason), none)
    | .ok text =>
      match generateFrom generator run switches text with
      | .error e => .done (.error e, none)
      | .ok (request, .error e) => .done (.error e, some request)
      | .ok (request, .ok files) =>
        (writeFiles run.output files).bind (fun result => .done (result, some request)))

/-- **Executes a task** when some switches are set. -/
def execute (t : Task) (generator : Kotlin.Generator) (switches : Switches) :
    Program TaskOutcome :=
  match t.run with
  | .error e => .done { result := .error (.configuration e), switches }
  | .ok run =>
    if t.isGuarded run.output then
      .done { result := .error (.unsafeOutput run.output), switches }
    else
      .ask (.removeDirectory run.output) (fun
        | .error reason => .done { result := .error (.host run.output reason), switches }
        | .ok () =>
          let during := switches.begin run.switches
          (regenerate generator run during).bind (fun (result, request) =>
            -- the keys of the run are removed whatever has come of it
            .done { result, switches := during.finish run.switches, request }))

end Task

end ClientGen
