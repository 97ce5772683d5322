/-!
# Errors of the operating system

An error is known by its number, with the text that the C library of Linux gives it, or carries a
text of its own.
-/

namespace PtyHost

/-- Why a call to the operating system failed. -/
inductive OsError
  | errno (number : Int)
  | custom (text : String)
deriving DecidableEq, Repr

namespace OsError

/-- The texts of the error numbers from 0 on. -/
def texts : List String :=
  ["Success", "Operation not permitted", "No such file or directory", "No such process",
    "Interrupted system call", "Input/output error", "No such device or address",
    "Argument list too long", "Exec format error", "Bad file descriptor", "No child processes",
    "Resource temporarily unavailable", "Cannot allocate memory", "Permission denied",
    "Bad address", "Block device required", "Device or resource busy", "File exists",
    "Invalid cross-device link", "No such device", "Not a directory", "Is a directory",
    "Invalid argument", "Too many open files in system", "Too many open files",
    "Inappropriate ioctl for device", "Text file busy", "File too large",
    "No space left on device", "Illegal seek", "Read-only file system", "Too many links",
    "Broken pipe", "Numerical argument out of domain", "Numerical result out of range",
    "Resource deadlock avoided", "File name too long", "No locks available",
    "Function not implemented", "Directory not empty", "Too many levels of symbolic links",
    "Unknown error 41", "No message of desired type", "Identifier removed",
    "Channel number out of range", "Level 2 not synchronized", "Level 3 halted", "Level 3 reset",
    "Link number out of range", "Protocol driver not attached", "No CSI structure available",
    "Level 2 halted", "Invalid exchange", "Invalid request descriptor", "Exchange full",
    "No anode", "Invalid request code", "Invalid slot", "Unknown error 58",
    "Bad font file format", "Device not a stream", "No data available", "Timer expired",
    "Out of streams resources", "Machine is not on the network", "Package not installed",
    "Object is remote", "Link has been severed", "Advertise error", "Srmount error",
    "Communication error on send", "Protocol error", "Multihop attempted", "RFS specific error",
    "Bad message", "Value too large for defined data type", "Name not unique on network",
    "File descriptor in bad state", "Remote address changed",
    "Can not access a needed shared library", "Accessing a corrupted shared library",
    ".lib section in a.out corrupted", "Attempting to link in too many shared libraries",
    "Cannot exec a shared library directly", "Invalid or incomplete multibyte or wide character",
    "Interrupted system call should be restarted", "Streams pipe error", "Too many users",
    "Socket operation on non-socket", "Destination address required", "Message too long",
    "Protocol wrong type for socket", "Protocol not available", "Protocol not supported",
    "Socket type not supported", "Operation not supported", "Protocol family not supported",
    "Address family not supported by protocol", "Address already in use",
    "Cannot assign requested address", "Network is down", "Network is unreachable",
    "Network dropped connection on reset", "Software caused connection abort",
    "Connection reset by peer", "No buffer space available",
    "Transport endpoint is already connected", "Transport endpoint is not connected",
    "Cannot send after transport endpoint shutdown", "Too many references: cannot splice",
    "Connection timed out", "Connection refused", "Host is down", "No route to host",
    "Operation already in progress", "Operation now in progress", "Stale file handle",
    "Structure needs cleaning", "Not a XENIX named type file", "No XENIX semaphores available",
    "Is a named type file", "Remote I/O error", "Disk quota exceeded", "No medium found",
    "Wrong medium type", "Operation canceled", "Required key not available", "Key has expired",
    "Key has been revoked", "Key was rejected by service", "Owner died", "State not recoverable",
    "Operation not possible due to RF-kill", "Memory page has hardware error"]

/-- The text of an error number. -/
def textOf (number : Int) : String :=
  match number with
  | .ofNat n => texts.getD n s!"Unknown error {n}"
  | .negSucc _ => s!"Unknown error {number}"

/-- The wording of an error: its text and, for a numbered one, the number. -/
def message : OsError → String
  | .errno n => s!"{textOf n} (os error {n})"
  | .custom text => text

/-- The error that a bare error number stands for; a number without a name of its own counts as
no error at all. -/
def ofNumber (number : Int) : OsError :=
  match number with
  | .ofNat n => if n < texts.length ∧ n ≠ 41 ∧ n ≠ 58 then .errno number else .errno 0
  | .negSucc _ => .errno 0

/-- The caller may not do this. -/
def notPermitted : OsError := .errno 1

/-- There is nothing of that name. -/
def notFound : OsError := .errno 2

/-- There is no such process. -/
def noProcess : OsError := .errno 3

/-- The file is no program. -/
def badProgram : OsError := .errno 8

/-- The other side of the terminal is closed. -/
def hangup : OsError := .errno 5

/-- There is nothing to read yet. -/
def wouldBlock : OsError := .errno 11

/-- The permissions of the file forbid this. -/
def accessDenied : OsError := .errno 13

/-- A name in the middle of a path is no directory. -/
def notADirectory : OsError := .errno 20

/-- The path leads to a directory. -/
def isADirectory : OsError := .errno 21

/-- The device knows no such request. -/
def notATerminal : OsError := .errno 25

/-- The name is longer than any file can have. -/
def nameTooLong : OsError := .errno 36

/-- The path runs through too many links. -/
def tooManyLinks : OsError := .errno 40

end OsError

end PtyHost
