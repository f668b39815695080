-- SUMMARY: `signal.hpp`: what a program asks to be told, and how.
import Pposix.Os.Syscall

/-! # Signal events -/

/-- `sig_notify`. -/
inductive SigNotify where
  | none | signal | thread
  deriving DecidableEq, Repr

/-- The values of Linux. -/
def SigNotify.underlying : SigNotify → Int
  | .none => 1
  | .signal => 0
  | .thread => 2

/-- `sig_number`. `sig_number{}` is no constant of the enumeration. -/
structure SigNumber where
  value : Int := 0
  deriving DecidableEq, Repr

namespace Sigevent

/-- The constructor for an `int`. -/
def ofInt (notify : SigNotify) (number : SigNumber) (callback : Ptr) (value : Int) : Sigevent where
  notify := notify.underlying
  signo := number.value
  value := .int value
  notifyFunction := callback
  notifyAttributes := 0

/-- The constructor for a pointer. -/
def ofPtr (notify : SigNotify) (number : SigNumber) (callback value : Ptr) : Sigevent where
  notify := notify.underlying
  signo := number.value
  value := .ptr value
  notifyFunction := callback
  notifyAttributes := 0

end Sigevent
