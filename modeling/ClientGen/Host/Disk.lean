import ClientGen.Host.Program
import ClientGen.OrderedMap
import ClientGen.Path

/-!
# A disk in memory

The simplest host: files by their paths, and nothing else. Every directory is
there, reading a file that is not fails, and removing a directory drops the
files below it. Paths with the same components are the same place.
-/

namespace ClientGen.Host

/-- **A disk**: the content of each file. -/
structure Disk where
  files : Entries String := []
deriving Repr, Inhabited

namespace Disk

/-- The content at a path. -/
def content? (d : Disk) (path : String) : Option String :=
  (List.find? (fun f => Path.same f.1 path) d.files).map Prod.snd

/-- Writes a file; one at the same place keeps its spelling. -/
def putFile (path content : String) : Entries String → Entries String
  | [] => [(path, content)]
  | f :: fs => if Path.same f.1 path then (f.1, content) :: fs else f :: putFile path content fs

/-- The disk after a file is written. -/
def write (d : Disk) (path content : String) : Disk := ⟨putFile path content d.files⟩

/-- The disk without the files below a directory. -/
def remove (d : Disk) (directory : String) : Disk :=
  ⟨d.files.filter (fun f => !Path.isBelow f.1 directory)⟩

/-- The reason why a file that is not there cannot be read. -/
def missing : String := "no such file"

/-- **Answers a call.** -/
def answer (d : Disk) : (c : Call) → c.Reply × Disk
  | .hasPath path => (d.files.any (fun f => Path.isBelow f.1 path), d)
  | .read path =>
    (match d.content? path with
      | some content => .ok content
      | none => .error missing, d)
  | .removeDirectory path => (.ok (), d.remove path)
  | .makeDirectory _ => (.ok (), d)
  | .write path content => (.ok (), d.write path content)
  | .print _ => ((), d)
  | .report _ => ((), d)

end Disk

end ClientGen.Host
