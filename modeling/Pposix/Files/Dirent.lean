-- SUMMARY: `dirent.cpp`: directory streams.
import Pposix.Core.Wrapper

/-! # Directory streams -/

def closeDir (dir : Ptr) : Sys ErrorCode := commonCall (.closedir dir)

/-- The stream that a call closes. -/
def Syscall.closedDir : Syscall → Option Ptr
  | .closedir dir => some dir
  | _ => none

/-- `std::integral_constant<DIR *, nullptr>` and `close_dir`. -/
def dirPolicy : Policy Ptr where
  null := 0
  close := closeDir
  call := .closedir
  handle := Syscall.closedDir
  close_eq _ := rfl
  handle_call _ := rfl

abbrev UniqueDirent := Descriptor dirPolicy

/-- The `if` that both overloads of `opendir` make of the stream. -/
def openedDir (c : Syscall) : Sys (Result UniqueDirent) := do
  let dir ← syscall c
  if dir.ret = 0 then return .ofErrorCode (← currentErrnoCode)
  else Result.ofTemporary (Descriptor.ofRaw dir.ret : UniqueDirent)

/-- `opendir(dir_fd)`. -/
def opendirFd (fd : Int) : Sys (Result UniqueDirent) := openedDir (.fdopendir fd)

def opendir (path : String) : Sys (Result UniqueDirent) := openedDir (.opendir path)
