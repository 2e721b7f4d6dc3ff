import ClientGen.Host.Program
import ClientGen.Run.Resolution

/-!
# Loading a configuration

A configuration is loaded from a file. That there is no file is no failure: it
leaves the caller without a configuration.
-/

namespace ClientGen.Configuration

open Host (Program)

/-- The configuration in the text of a file. -/
def ofFile (path text : String) : Except ConfigurationError Configuration :=
  match ofText? text with
  | some c => .ok c
  | none => .error (.malformed path)

/-- **Loads a configuration**, if there is a file. -/
def load (path : String) : Program (Except ConfigurationError (Option Configuration)) :=
  .ask (.hasPath path) (fun
    | false => .done (.ok none)
    | true => .ask (.read path) (fun
      | .error reason => .done (.error (.unreadable path reason))
      | .ok text => .done ((ofFile path text).map some)))

end ClientGen.Configuration
