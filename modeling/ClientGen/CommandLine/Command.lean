import ClientGen.Document.Source
import ClientGen.Run.Configuration

/-!
# Commands

The words of a command line choose a command and its options. An option is
written in full (`--config file`, `--config=file`) or by its letter
(`-c file`, `-cfile`, `-c=file`); what takes no value is a flag. The word `--`
ends the options.

Each command declares its options (`OptionForm`). `items?` reads the words by
these declarations, and each command takes what it needs from the items.
-/

namespace ClientGen.CommandLine

/-- **The project that a command works on.** -/
structure ProjectChoice where
  /-- The configuration file, seen from the project directory. -/
  configuration : String := Configuration.fileName
  directory : String := "."
  /-- The names of the compile tasks of the host. -/
  compileTasks : List String := []
deriving DecidableEq, Repr, Inhabited

/-- **A command.** -/
inductive Command where
  /-- Runs the tasks of a project, or one of them. -/
  | generate (project : ProjectChoice) (root task : Option String)
  /-- Lists the tasks of a project. -/
  | tasks (project : ProjectChoice)
  /-- Lists the generators, or describes one. -/
  | list (variant : Option String)
  /-- Reads and converts a document. -/
  | validate (input : String)
  /-- Shows what a generator makes of a document. -/
  | inspect (input variant : String) (format : TextFormat)
  /-- Writes the configuration file that a project starts with. -/
  | init (force : Bool)
  | version
  | help
deriving DecidableEq, Repr, Inhabited

/-- **The form of an option.** -/
structure OptionForm where
  name : String
  letter : Option Char := none
  /-- Whether a value follows. -/
  takesValue : Bool := true
  /-- Whether it may be given more than once. -/
  repeats : Bool := false
  /-- Whether the value may be empty. -/
  allowsEmpty : Bool := false
deriving DecidableEq, Repr, Inhabited

namespace OptionForm

/-- The configuration file. -/
def configuration : OptionForm := { name := "config", letter := some 'c' }

/-- The project directory. -/
def projectDirectory : OptionForm := { name := "project-dir" }

/-- The directory around all projects. -/
def rootDirectory : OptionForm := { name := "root-dir" }

/-- A compile task of the host. -/
def compileTask : OptionForm := { name := "compile-task", repeats := true, allowsEmpty := true }

/-- The task to run. -/
def task : OptionForm := { name := "task", letter := some 't', allowsEmpty := true }

/-- The document. -/
def input : OptionForm := { name := "input", letter := some 'i' }

/-- The generator. -/
def variant : OptionForm := { name := "variant", allowsEmpty := true }

/-- The format of the output. -/
def format : OptionForm := { name := "format" }

/-- Whether a file is written over. -/
def force : OptionForm := { name := "force", takesValue := false }

/-- Asks for help. -/
def help : OptionForm :=
  { name := "help", letter := some 'h', takesValue := false, repeats := true }

end OptionForm

/-- What a word or two of a command line say. -/
inductive Item where
  | option (name value : String)
  | operand (word : String)
deriving DecidableEq, Repr

/-- How a word is read on its own. -/
inductive Reading where
  /-- Not an option. -/
  | operand
  | unknown
  /-- An option with what is attached to it. -/
  | option (form : OptionForm) (attached : Option String)

/-- Reads the word of an option that is written in full. -/
def readName (forms : List OptionForm) (body : List Char) : Reading :=
  let (name, attached) := match Text.splitFirst? '=' body with
    | some (name, value) => (name, some (String.ofList value))
    | none => (body, none)
  match forms.find? (fun f => f.name = String.ofList name) with
  | some form => .option form attached
  | none => .unknown

/-- Reads the word of an option that is written by its letter. -/
def readLetter (forms : List OptionForm) (letter : Char) (rest : List Char) : Reading :=
  match forms.find? (fun f => f.letter = some letter) with
  | none => .unknown
  | some form =>
    match rest with
    | [] => .option form none
    | '=' :: value => .option form (some (String.ofList value))
    | value => .option form (some (String.ofList value))

/-- Reads a word on its own. -/
def readWord (forms : List OptionForm) (word : String) : Reading :=
  match word.toList with
  | '-' :: '-' :: body => readName forms body
  | '-' :: letter :: rest => readLetter forms letter rest
  | _ => .operand

/-- Whether a word can be the value of the option before it. -/
def isValue (word : String) : Bool :=
  match word.toList with
  | '-' :: _ :: _ => false
  | _ => true

/-- The item of an option with a value. -/
def valued (form : OptionForm) (value : String) : Option Item :=
  if value.isEmpty && !form.allowsEmpty then none else some (.option form.name value)

/-- **Reads words** by the forms of options, unless one is unknown, lacks its value or
has one that it does not take. Whatever follows a call for help is not read. -/
def items? (forms : List OptionForm) : List String → Option (List Item)
  | [] => some []
  | "--" :: words => some (words.map .operand)
  | word :: words =>
    match readWord forms word with
    | .unknown => none
    | .operand => (items? forms words).map (.operand word :: ·)
    | .option form attached =>
      if !form.takesValue then
        if attached.isSome then none
        else if form = .help then some [.option form.name ""]
        else (items? forms words).map (.option form.name "" :: ·)
      else
        match attached, words with
        | some value, words => do return (← valued form value) :: (← items? forms words)
        | none, value :: words =>
          if isValue value then do return (← valued form value) :: (← items? forms words) else none
        | none, [] => none

/-- The values of an option, in their order. -/
def valuesOf (items : List Item) (form : OptionForm) : List String :=
  items.filterMap (fun
    | .option name value => if name = form.name then some value else none
    | .operand _ => none)

/-- Whether no option is given more often than it may be. -/
def respectsForms (forms : List OptionForm) (items : List Item) : Bool :=
  forms.all (fun f => f.repeats || (valuesOf items f).length ≤ 1)

/-- The operands, in their order. -/
def operandsOf (items : List Item) : List String :=
  items.filterMap (fun
    | .operand word => some word
    | .option .. => none)

/-- The value of an option that is given at most once. -/
def valueOf? (items : List Item) (form : OptionForm) : Option String := (valuesOf items form).head?

/-- The project that options choose. -/
def projectOf (items : List Item) : ProjectChoice where
  configuration := (valueOf? items .configuration).getD Configuration.fileName
  directory := (valueOf? items .projectDirectory).getD "."
  compileTasks := valuesOf items .compileTask

/-- The format of a name. -/
def formatNamed? : String → Option TextFormat
  | "yaml" => some .yaml
  | "json" => some .json
  | _ => none

/-- The generator whose conversion is shown unless another is named. -/
def defaultVariant : String := "kotlin-client-v2"

/-- The name of each command, with the options and the number of operands it takes,
and what it makes of them. -/
structure CommandForm where
  name : String
  options : List OptionForm
  operands : Nat := 0
  command? : List Item → Option Command

namespace CommandForm

/-- Runs tasks. -/
def generate : CommandForm where
  name := "generate"
  options := [.configuration, .projectDirectory, .rootDirectory, .compileTask, .task]
  command? items :=
    some (.generate (projectOf items) (valueOf? items .rootDirectory) (valueOf? items .task))

/-- Lists tasks. -/
def tasks : CommandForm where
  name := "tasks"
  options := [.configuration, .projectDirectory, .compileTask]
  command? items := some (.tasks (projectOf items))

/-- Lists generators. -/
def list : CommandForm where
  name := "list"
  options := []
  operands := 1
  command? items := some (.list (operandsOf items).head?)

/-- Checks a document. -/
def validate : CommandForm where
  name := "validate"
  options := [.input]
  command? items := do return .validate (← valueOf? items .input)

/-- Shows a client. -/
def inspect : CommandForm where
  name := "inspect"
  options := [.input, .variant, .format]
  command? items := do
    let input ← valueOf? items .input
    let format ← formatNamed? ((valueOf? items .format).getD "yaml")
    return .inspect input ((valueOf? items .variant).getD defaultVariant) format

/-- Starts a project. -/
def init : CommandForm where
  name := "init"
  options := [.force]
  command? items := some (.init !(valuesOf items .force).isEmpty)

/-- The commands in the order in which they are listed. -/
def all : List CommandForm := [generate, tasks, list, validate, inspect, init]

/-- The command that the words behind its name make. -/
def read? (form : CommandForm) (words : List String) : Option Command := do
  let forms := .help :: form.options
  let items ← items? forms words
  if !(valuesOf items .help).isEmpty then return .help
  if respectsForms forms items && (operandsOf items).length ≤ form.operands then
    form.command? items
  else none

end CommandForm

/-- **The command of a command line**, if it is one. -/
def Command.ofWords? : List String → Option Command
  | [] => none
  | word :: words =>
    if word = "--version" || Text.startsWith word "-V" then some .version
    else if word = "--help" || word = "help" || Text.startsWith word "-h" then some .help
    else do (← CommandForm.all.find? (fun f => f.name = word)).read? words

end ClientGen.CommandLine
