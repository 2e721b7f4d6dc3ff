import ClientGen.Run.Configuration
import ClientGen.Text.Blank

/-!
# Resolving runs

A run is bound to a copy of the configuration (`BoundRun`) and resolved when it
is first asked for: its paths are joined, its library is chosen, its settings
are merged. From then on the resolved run is kept, together with whatever is
changed in it. An error is not kept, but since neither the copy nor the run
changes, it returns the same whenever it is asked for again.
-/

namespace ClientGen

/-- Why a run cannot be resolved, or a configuration not be loaded. -/
inductive ConfigurationError where
  | missingInput
  | blankFolder (input : String)
  | missingGenerator (input : String)
  /-- The file cannot be read. -/
  | unreadable (path reason : String)
  /-- The file is no configuration. -/
  | malformed (path : String)
deriving DecidableEq, Repr, Inhabited

namespace ConfigurationError

/-- The text of a configuration error. -/
def message : ConfigurationError → String
  | .missingInput => "malformed run descriptor: `inputFileName` must not be empty"
  | .blankFolder input =>
    "malformed run descriptor: `outputFolderName` of run `" ++ input ++ "` must not be blank"
  | .missingGenerator input =>
    "no generator selected for run `" ++ input ++ "`; set `generatorName` in the base config"
  | .unreadable path reason => "failed to read config " ++ path ++ ": " ++ reason
  | .malformed path => "failed to parse config " ++ path

/-- What lies behind a configuration error. -/
def causes : ConfigurationError → List String
  | .unreadable _ reason => [reason]
  | _ => []

end ConfigurationError

/-- **A resolved run.** -/
structure ResolvedRun where
  /-- The path of the document. -/
  input : String
  /-- The directory that is generated. -/
  output : String
  generator : String
  /-- The library; the generator's own choice, if absent. -/
  library : Option String
  settings : Settings
  switches : OrderedMap String
deriving Inhabited

namespace RunDescriptor

/-- Whether the run can be resolved as far as it goes itself. -/
def check (run : RunDescriptor) : Except ConfigurationError Unit :=
  if Text.isBlank run.input then .error .missingInput
  else if run.folder.any Text.isBlank then .error (.blankFolder run.input)
  else .ok ()

end RunDescriptor

namespace Configuration

/-- The generator, if one is named. -/
def generator? (c : Configuration) : Option String :=
  c.generator.filter (fun name => !Text.isBlank name)

/-- **The settings of a run**: those of the configuration that it does not override,
then its own. -/
def settingsFor (c : Configuration) (run : RunDescriptor) : Settings :=
  run.settings.entries.foldl (fun settings e => settings.moveLast e.1 e.2) c.settings

/-- **Resolves a run.** -/
def resolve (c : Configuration) (run : RunDescriptor) :
    Except ConfigurationError ResolvedRun := do
  run.check
  match c.generator? with
  | none => .error (.missingGenerator run.input)
  | some generator =>
    return {
      input := Path.join c.sourcePath run.input
      output := match run.folder with
        | some folder => Path.join c.outputPath folder
        | none => c.outputPath
      generator
      library := run.library.orElse (fun _ => c.library)
      settings := c.settingsFor run
      switches := c.switches }

end Configuration

/-- **A run bound to its own copy of a configuration.** -/
structure BoundRun where
  configuration : Configuration
  run : RunDescriptor
  /-- The resolved run, once it has been asked for. -/
  resolved : Option ResolvedRun := none
deriving Inhabited

namespace BoundRun

/-- **The resolved run**, and the bound run that keeps it. -/
def resolve (b : BoundRun) : Except ConfigurationError ResolvedRun × BoundRun :=
  match b.resolved with
  | some r => (.ok r, b)
  | none =>
    match b.configuration.resolve b.run with
    | .ok r => (.ok r, { b with resolved := some r })
    | .error e => (.error e, b)

/-- Changes the resolved run. -/
def modify (b : BoundRun) (change : ResolvedRun → ResolvedRun) :
    Except ConfigurationError ResolvedRun × BoundRun :=
  match b.resolve with
  | (.ok r, b) => (.ok (change r), { b with resolved := some (change r) })
  | (.error e, b) => (.error e, b)

end BoundRun

namespace Configuration

/-- Binds a run to a copy of the configuration as it stands. -/
def bind (c : Configuration) (run : RunDescriptor) : BoundRun := { configuration := c, run }

/-- Binds every configured run. -/
def bindAll (c : Configuration) : List BoundRun := c.runs.map c.bind

end Configuration

end ClientGen
