/-!
# Reasons of an operating system

A call on files that fails does so with a number. The reason that is shown is
the text of the number with the number behind it.
-/

namespace ClientGen.Host.Reason

/-- The texts of the numbers that calls on files fail with. -/
def texts : List (Nat × String) :=
  [(1, "Operation not permitted"), (2, "No such file or directory"), (5, "Input/output error"),
   (9, "Bad file descriptor"), (11, "Resource temporarily unavailable"),
   (12, "Cannot allocate memory"), (13, "Permission denied"), (16, "Device or resource busy"),
   (17, "File exists"), (18, "Invalid cross-device link"), (20, "Not a directory"),
   (21, "Is a directory"), (22, "Invalid argument"), (23, "Too many open files in system"),
   (24, "Too many open files"), (26, "Text file busy"), (27, "File too large"),
   (28, "No space left on device"), (30, "Read-only file system"), (31, "Too many links"),
   (32, "Broken pipe"), (36, "File name too long"), (39, "Directory not empty"),
   (40, "Too many levels of symbolic links"), (116, "Stale file handle"),
   (122, "Disk quota exceeded")]

/-- The text of a number. -/
def text (number : Nat) : String :=
  match texts.find? (fun e => e.1 = number) with
  | some e => e.2
  | none => "Unknown error " ++ Nat.repr number

/-- **The reason of a number.** -/
def ofNumber (number : Nat) : String :=
  text number ++ " (os error " ++ Nat.repr number ++ ")"

/-- Nothing is at the path, or at a directory on the way to it. -/
def missing : String := ofNumber 2

/-- Something is at the path already. -/
def occupied : String := ofNumber 17

/-- Something on the way is no directory. -/
def notDirectory : String := ofNumber 20

/-- A directory is at the path. -/
def isDirectory : String := ofNumber 21

/-- The reason why the bytes of a file are no text. -/
def notText : String := "stream did not contain valid UTF-8"

end ClientGen.Host.Reason
