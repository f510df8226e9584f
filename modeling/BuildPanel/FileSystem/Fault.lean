/-!
What the operating system refuses, and the words it has for it.
-/

namespace BuildPanel

/-- Why a request to the operating system failed. -/
inductive Fault where
  | notFound
  | malformedProgram
  | permissionDenied
  | busy
  | alreadyExists
  | notDirectory
  | isDirectory
  | invalidArgument
  | nameTooLong
  | notEmpty
  | tooManyLinks
  | addressNotAvailable
  | notText
  | nulInPath
  /-- A program, an argument or a working directory has a NUL byte. -/
  | nulInCommand
  deriving DecidableEq, Repr

namespace Fault

def text : Fault → String
  | notFound => "No such file or directory"
  | malformedProgram => "Exec format error"
  | permissionDenied => "Permission denied"
  | busy => "Device or resource busy"
  | alreadyExists => "File exists"
  | notDirectory => "Not a directory"
  | isDirectory => "Is a directory"
  | invalidArgument => "Invalid argument"
  | nameTooLong => "File name too long"
  | notEmpty => "Directory not empty"
  | tooManyLinks => "Too many levels of symbolic links"
  | addressNotAvailable => "Cannot assign requested address"
  | notText => "stream did not contain valid UTF-8"
  | nulInPath => "file name contained an unexpected NUL byte"
  | nulInCommand => "nul byte found in provided data"

/-- The number under which the system knows a fault. -/
def number? : Fault → Option Nat
  | notFound => some 2
  | malformedProgram => some 8
  | permissionDenied => some 13
  | busy => some 16
  | alreadyExists => some 17
  | notDirectory => some 20
  | isDirectory => some 21
  | invalidArgument => some 22
  | nameTooLong => some 36
  | notEmpty => some 39
  | tooManyLinks => some 40
  | addressNotAvailable => some 99
  | notText | nulInPath | nulInCommand => none

/-- The text shown for a fault: its words, and its number if it has one. -/
def message (f : Fault) : String :=
  match f.number? with
  | some n => f.text ++ " (os error " ++ toString n ++ ")"
  | none => f.text

end Fault

end BuildPanel
