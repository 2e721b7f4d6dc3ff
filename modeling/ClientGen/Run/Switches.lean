import ClientGen.OrderedMap
import ClientGen.Text.Search

/-!
# Switches

Which classes of files are generated is decided by switches: texts under keys,
shared by all runs of the process. A run sets its own switches while it
generates (`Switches.begin`) and removes their keys afterwards
(`Switches.finish`), so that none is left for the next run.
-/

namespace ClientGen

/-- **The switches that are set.** -/
abbrev Switches := OrderedMap String

namespace Switches

/-- Whether a class of files is generated. Only the text `false`, in any case of
letters, turns it off. -/
def isOn (s : Switches) (key : String) : Bool :=
  !(s.find? key).any (fun value => Text.sameIgnoringCase value "false")

/-- The switches while a run that sets `own` generates. -/
def begin (s own : Switches) : Switches := s.putAll own.entries

/-- The switches after a run that has set `own`. -/
def finish (s own : Switches) : Switches := own.keys.foldl OrderedMap.erase s

end Switches

/-- The classes of files that have a switch. -/
inductive FileClass where
  | models
  | apis
  | supportingFiles
  | modelDocs
  | apiDocs
deriving DecidableEq, Repr

/-- The key of the switch of a class. -/
def FileClass.key : FileClass → String
  | .models => "models"
  | .apis => "apis"
  | .supportingFiles => "supportingFiles"
  | .modelDocs => "modelDocs"
  | .apiDocs => "apiDocs"

end ClientGen
