import ClientGen.CommandLine.Execution
import ClientGen.Host.Reason
import ClientGen.Path

/-!
# The program

The calls of a command line are answered by the operating system. Nothing is
decided here: a failure becomes its reason, and a directory that is to be
removed and is not there counts as removed.
-/

namespace ClientGen.Host

/-- The number of a failure, if the operating system gave one. -/
def failureNumber? : IO.Error → Option UInt32
  | .alreadyExists _ code _ => some code
  | .otherError code _ => some code
  | .resourceBusy code _ => some code
  | .resourceVanished code _ => some code
  | .unsupportedOperation code _ => some code
  | .hardwareFault code _ => some code
  | .unsatisfiedConstraints code _ => some code
  | .illegalOperation code _ => some code
  | .protocolError code _ => some code
  | .timeExpired code _ => some code
  | .interrupted _ code _ => some code
  | .noFileOrDirectory _ code _ => some code
  | .invalidArgument _ code _ => some code
  | .permissionDenied _ code _ => some code
  | .resourceExhausted _ code _ => some code
  | .inappropriateType _ code _ => some code
  | .noSuchThing _ code _ => some code
  | .unexpectedEof => none
  | .userError _ => none

/-- A number without its sign. Some calls fail with the negative number. -/
def unsigned (code : UInt32) : Nat := code.toInt32.toInt.natAbs

/-- The reason of a failure. -/
def reasonOf (e : IO.Error) : String :=
  match failureNumber? e with
  | some code => Reason.ofNumber (unsigned code)
  | none => Reason.notText

/-- The reply that the result of a call makes. -/
def attempt {α : Type} (act : IO α) : IO (Except String α) := do
  match ← act.toBaseIO with
  | .ok a => return .ok a
  | .error e => return .error (reasonOf e)

/-- Whether a directory is at a path. -/
def isDirectory (path : String) : IO Bool := do
  try return ← (← IO.FS.realPath path).isDir
  catch _ => return false

/-- Makes a directory. One that is there already is as good. -/
def makeOne (path : String) : IO Unit := do
  try IO.FS.createDir path
  catch e => unless ← isDirectory path do throw e

/-- Makes a directory, and if it cannot be made for want of the one around it, that
one before. -/
partial def makeAll (path : String) : IO Unit := do
  if path.isEmpty then return
  try makeOne path
  catch e =>
    if reasonOf e ≠ Reason.missing then throw e
    match Path.parent? path with
    | some parent =>
      makeAll parent
      makeOne path
    | none => throw e

/-- Removes a directory with everything in it. -/
def removeAll (path : String) : IO Unit := do
  try IO.FS.removeDirAll path
  catch e => unless reasonOf e = Reason.missing do throw e

/-- **Answers a call** by the operating system. -/
def answerCall : (c : Call) → IO c.Reply
  | .hasPath path => do
    match ← (IO.FS.realPath path).toBaseIO with
    | .ok _ => return true
    | .error _ => return false
  | .read path => attempt (IO.FS.readFile path)
  | .removeDirectory path => attempt (removeAll path)
  | .makeDirectory path => attempt (makeAll path)
  | .write path content => attempt (IO.FS.writeFile path content)
  | .print text => IO.println text
  | .report text => IO.eprintln text

end ClientGen.Host

/-- **The program**: its words make a command, whose exit code it returns. -/
def main (words : List String) : IO UInt32 := do
  return ((← (ClientGen.CommandLine.run words).runWith ClientGen.Host.answerCall).toUInt32)
