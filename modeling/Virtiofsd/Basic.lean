/-
  # Errors of the daemon

  Every fallible function of the source returns `io::Result`.  An `io::Error` there is
  one of two things: a raw host error number (`io::Error::from_raw_os_error`,
  `io::Error::last_os_error`) or an error made by the daemon itself from an `ErrorKind`
  and a message.  The difference matters to the guest: `reply_error` forwards the number
  of the former and answers `EIO` for the latter.
-/
import Mathlib.Data.List.Basic

namespace Virtiofsd

/-- A host error number, in the Linux numbering the wire uses. -/
abbrev Errno := Nat

/-- The error numbers the daemon itself produces. -/
def EPERM : Errno := 1
def ENOENT : Errno := 2
def EIO : Errno := 5
def EBADF : Errno := 9
def ENOMEM : Errno := 12
def EACCES : Errno := 13
def EEXIST : Errno := 17
def EINVAL : Errno := 22
def ENFILE : Errno := 23
def EROFS : Errno := 30
def ENOSYS : Errno := 38
def ENODATA : Errno := 61
def EPROTO : Errno := 71
def EOVERFLOW : Errno := 75
def EOPNOTSUPP : Errno := 95

/-- `io::ErrorKind`, as far as the daemon makes or tests it; every other kind that an error
number maps to is `uncategorized`. -/
inductive ErrorKind where
  | alreadyExists
  | invalidInput
  | invalidData
  | notFound
  | permissionDenied
  | unexpectedEof
  | writeZero
  | other
  | uncategorized
  deriving DecidableEq

/-- **`io::Error`.**  `os e` is a raw host error, `custom k m` one the daemon made. -/
inductive IoError where
  | os (errno : Errno)
  | custom (kind : ErrorKind) (msg : String)
  deriving DecidableEq

namespace IoError

/-- `io::Error::raw_os_error`. -/
def rawOsError : IoError → Option Errno
  | os e => some e
  | custom _ _ => none

/-- `io::Error::kind`. -/
def kind : IoError → ErrorKind
  | os e =>
    if e = EEXIST then .alreadyExists
    else if e = ENOENT then .notFound
    else if e = EPERM ∨ e = EACCES then .permissionDenied
    else if e = EINVAL then .invalidInput
    else .uncategorized
  | custom k _ => k

/-- `util::other_io_error`. -/
def other (msg : String) : IoError := custom .other msg

/-- `ResultErrorContext::err_context`: the kind stays, the text grows. -/
def context (e : IoError) (msg : String) : IoError := custom e.kind msg

/-- `util::ebadf`. -/
def ebadf : IoError := os EBADF

/-- `util::einval`. -/
def einval : IoError := os EINVAL

/-- `util::erofs`. -/
def erofs : IoError := os EROFS

end IoError

end Virtiofsd
