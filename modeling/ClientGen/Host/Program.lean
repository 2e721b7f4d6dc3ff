/-!
# Programs that call on their host

What a run does outside itself is a sequence of calls on the host: reading and
writing files, making and removing directories, printing. A `Program` is such a
sequence as a value – a tree that branches on the replies – so that what it
calls for, and in which order, can be stated for every host at once.

`Program.runWith` answers the calls in any monad. In `Program.trace` the
replies come from a function of the calls made so far, and the calls are kept.
-/

namespace ClientGen.Host

/-- **A call on the host.** -/
inductive Call where
  /-- Whether something is at a path. -/
  | hasPath (path : String)
  | read (path : String)
  /-- Removes a directory with everything in it; one that is not there is removed
  already. -/
  | removeDirectory (path : String)
  /-- Makes a directory and those around it, as far as they are not there. -/
  | makeDirectory (path : String)
  | write (path content : String)
  /-- Prints a line of output. -/
  | print (text : String)
  /-- Prints a line about what happens. -/
  | report (text : String)
deriving DecidableEq, Repr, Inhabited

/-- **The replies to a call.** A failure has a reason. -/
abbrev Call.Reply : Call → Type
  | .hasPath _ => Bool
  | .read _ => Except String String
  | .removeDirectory _ => Except String Unit
  | .makeDirectory _ => Except String Unit
  | .write _ _ => Except String Unit
  | .print _ => Unit
  | .report _ => Unit

/-- **A program** with a result. -/
inductive Program (α : Type) where
  | done (result : α)
  | ask (call : Call) (next : call.Reply → Program α)

namespace Program

variable {α β : Type}

/-- The program that makes one call. -/
def call (c : Call) : Program c.Reply := .ask c .done

/-- One program after the other. -/
def bind : Program α → (α → Program β) → Program β
  | .done a, f => f a
  | .ask c next, f => .ask c (fun reply => (next reply).bind f)

instance : Monad Program where
  pure := .done
  bind := bind

/-- Runs a program, with each call answered in a monad. -/
def runWith {m : Type → Type} [Monad m] (answer : (c : Call) → m c.Reply) : Program α → m α
  | .done a => pure a
  | .ask c next => do runWith answer (next (← answer c))

/-- A host that answers each call by the calls made before it, latest first. -/
abbrev Answers := List Call → (c : Call) → c.Reply

/-- **The calls of a program and its result** on a host, after some calls. -/
def traceFrom (host : Answers) : List Call → Program α → List Call × α
  | before, .done a => (before.reverse, a)
  | before, .ask c next => traceFrom host (c :: before) (next (host before c))

/-- The calls of a program and its result on a host. -/
def trace (host : Answers) (p : Program α) : List Call × α := traceFrom host [] p

/-- One program after the other, by its first steps. -/
@[simp] theorem bind_done (a : α) (f : α → Program β) : (done a).bind f = f a := rfl

end Program

end ClientGen.Host
