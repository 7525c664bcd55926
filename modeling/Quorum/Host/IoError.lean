/-!
# Input and output errors

The failures that the operating system reports for files and processes, each with its number and
its text, and errors that carry a text of their own. An error of the system reads
`<text> (os error <number>)`.
-/

namespace Quorum

/-- An error number of the operating system. -/
inductive Errno where
  | noEntry
  | permissionDenied
  | busy
  | fileExists
  | notDirectory
  | isDirectory
  | invalidArgument
  | nameTooLong
  | directoryNotEmpty
  deriving DecidableEq, Repr

namespace Errno

def code : Errno → Nat
  | .noEntry => 2
  | .permissionDenied => 13
  | .busy => 16
  | .fileExists => 17
  | .notDirectory => 20
  | .isDirectory => 21
  | .invalidArgument => 22
  | .nameTooLong => 36
  | .directoryNotEmpty => 39

def text : Errno → String
  | .noEntry => "No such file or directory"
  | .permissionDenied => "Permission denied"
  | .busy => "Device or resource busy"
  | .fileExists => "File exists"
  | .notDirectory => "Not a directory"
  | .isDirectory => "Is a directory"
  | .invalidArgument => "Invalid argument"
  | .nameTooLong => "File name too long"
  | .directoryNotEmpty => "Directory not empty"

def ofCode (n : Nat) : Option Errno :=
  [noEntry, permissionDenied, busy, fileExists, notDirectory, isDirectory, invalidArgument,
    nameTooLong, directoryNotEmpty].find? (·.code = n)

end Errno

/-- A failed input or output. -/
inductive IoError where
  | os (errno : Errno)
  | other (text : String)
  deriving DecidableEq, Repr

/-- The failure of a call given a path with a NUL byte, which cannot be handed to the system. -/
def IoError.nulInPath : IoError :=
  .other "file name contained an unexpected NUL byte"

def IoError.message : IoError → String
  | .os e => e.text ++ " (os error " ++ Nat.repr e.code ++ ")"
  | .other t => t

end Quorum
