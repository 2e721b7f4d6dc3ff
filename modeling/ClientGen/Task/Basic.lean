import ClientGen.Kotlin.Generation
import ClientGen.Run.Resolution

/-!
# Tasks

The runs of a configuration are registered with the host build as tasks, one
for each language and run. Kotlin tasks are always there; Java tasks are there
if the host compiles Java, and Kotlin not at all or by force. A task may be
hooked into the compile tasks of the host.
-/

namespace ClientGen

/-- The languages a task is registered for. -/
inductive Language where
  | kotlin
  | java
deriving DecidableEq, Repr, Inhabited

/-- The name of a language. -/
def Language.name : Language → String
  | .kotlin => "kotlin"
  | .java => "java"

/-- The build that tasks are registered in. -/
structure HostProject where
  directory : String
  /-- The directory of the project around all projects. -/
  root : String
  /-- The names of the compile tasks. -/
  compileTasks : List String := []
deriving DecidableEq, Repr, Inhabited

namespace HostProject

/-- The name of the task that compiles Java. -/
def compileJava : String := "compileJava"

/-- What the names of all tasks that compile Kotlin begin with. -/
def compileKotlin : String := "compileKotlin"

/-- The tasks that compile Kotlin. -/
def kotlinTasks (project : HostProject) : List String :=
  project.compileTasks.filter (fun t => Text.startsWith t compileKotlin)

/-- Whether a task compiles Java. -/
def hasJavaTask (project : HostProject) : Bool := project.compileTasks.contains compileJava

end HostProject

/-- **A task**: a run of a language, bound to a host project. -/
structure Task where
  name : String
  language : Language
  bound : BoundRun
  /-- The directory of the host project. -/
  directory : String
  /-- The directory of the project around all projects. -/
  root : String
  /-- The compile tasks that depend on this one. -/
  hooks : List String
deriving Inhabited

namespace Task

/-- The name of a task. -/
def nameFor (language : Language) (folder : Option String) : String :=
  "swagger-" ++ language.name ++ (match folder with
    | some folder => "-" ++ folder
    | none => "")

/-- The resolved run of a task. -/
def run (t : Task) : Except ConfigurationError ResolvedRun := t.bound.resolve.1

/-- The task of a language and a run. -/
def ofRun (c : Configuration) (project : HostProject) (language : Language)
    (run : RunDescriptor) : Task where
  name := nameFor language run.folder
  language := language
  bound := c.bind run
  directory := project.directory
  root := project.root
  hooks := if c.hooks then
      match language with
      | .java => [HostProject.compileJava]
      | .kotlin => project.kotlinTasks
    else []

/-- Adds a task, unless one of its name is there. -/
def add (tasks : List Task) (t : Task) : List Task :=
  if tasks.any (fun u => u.name = t.name) then tasks else tasks ++ [t]

end Task

namespace Configuration

/-- The languages that get tasks, in their order. -/
def languages (c : Configuration) (project : HostProject) : List Language :=
  if project.hasJavaTask && (project.kotlinTasks.isEmpty || c.forcesJava) then [.java, .kotlin]
  else [.kotlin]

/-- **The tasks of a configuration** in a host project. Of runs with one folder the
first counts. -/
def tasks (c : Configuration) (project : HostProject) : List Task :=
  (c.languages project).foldl (fun tasks language =>
    c.runs.foldl (fun tasks run => Task.add tasks (Task.ofRun c project language run)) tasks) []

end Configuration

end ClientGen
