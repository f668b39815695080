-- SUMMARY: `errno.cpp`: access to errno, error codes, and the `errno_context` scope.
import Pposix.Os.Syscall

/-!
# errno

`std::error_code` pairs a value with a category. Every code of the library has the
system category, so an `ErrorCode` is its value.
-/

structure ErrorCode where
  value : Errno := 0
  deriving DecidableEq, Repr

/-- `explicit operator bool`: the code is not the success code. -/
def ErrorCode.isError (ec : ErrorCode) : Bool := ec.value != 0

theorem ErrorCode.isError_mk {err : Errno} (herr : err ≠ 0) :
    (⟨err⟩ : ErrorCode).isError = true :=
  bne_iff_ne.mpr herr

def getErrno : Sys Errno := get

def setErrno (err : Errno) : Sys Unit := set err

def makeErrnoCode (err : Errno) : ErrorCode := ⟨err⟩

def currentErrnoCode : Sys ErrorCode := do
  return makeErrnoCode (← getErrno)

/-! ## `errno_context` -/

structure ErrnoContext where
  savedErrno : Errno
  deriving DecidableEq, Repr

namespace ErrnoContext

/-- The constructor saves `errno` and sets it to zero. -/
def construct : Sys ErrnoContext := do
  let saved ← getErrno
  setErrno 0
  return ⟨saved⟩

def restore (c : ErrnoContext) : Sys Unit := setErrno c.savedErrno

def destroy (c : ErrnoContext) : Sys Unit := c.restore

end ErrnoContext
