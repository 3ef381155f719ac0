/-! # Why the system did not do something

The system gives a number for the reason.  What is shown is its wording and the number.

* `systemWording?` — the wording of the numbers that files and sockets give;
* `systemReason` — what is shown.
-/

namespace Tollgate.Cli

/-- The wording of the numbers that files and sockets give. -/
def systemWording? : Nat → Option String
  | 1 => some "Operation not permitted"
  | 2 => some "No such file or directory"
  | 5 => some "Input/output error"
  | 13 => some "Permission denied"
  | 16 => some "Device or resource busy"
  | 17 => some "File exists"
  | 20 => some "Not a directory"
  | 21 => some "Is a directory"
  | 22 => some "Invalid argument"
  | 23 => some "Too many open files in system"
  | 24 => some "Too many open files"
  | 26 => some "Text file busy"
  | 27 => some "File too large"
  | 28 => some "No space left on device"
  | 30 => some "Read-only file system"
  | 32 => some "Broken pipe"
  | 36 => some "File name too long"
  | 40 => some "Too many levels of symbolic links"
  | 97 => some "Address family not supported by protocol"
  | 98 => some "Address already in use"
  | 99 => some "Cannot assign requested address"
  | 101 => some "Network is unreachable"
  | 104 => some "Connection reset by peer"
  | 110 => some "Connection timed out"
  | 111 => some "Connection refused"
  | 113 => some "No route to host"
  | _ => none

/-- What is shown of a number; `otherwise` is the wording of one that has none here. -/
def systemReason (code : Nat) (otherwise : String) : String :=
  (systemWording? code).getD otherwise ++ " (os error " ++ code.repr ++ ")"

end Tollgate.Cli
