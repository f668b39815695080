-- SUMMARY: `file_descriptor.cpp`: descriptors of files.
import Pposix.Core.Wrapper

/-! # File descriptors -/

def closeFd (fd : Int) : Sys ErrorCode := commonCall (.close fd)

/-- The number that a call closes. -/
def Syscall.closedFd : Syscall → Option Int
  | .close fd => some fd
  | _ => none

/-- `descriptor_constant<raw_fd, raw_fd_t, -1>` and `close_fd`. -/
def fdPolicy : Policy Int where
  null := -1
  close := closeFd
  call := .close
  handle := Syscall.closedFd
  close_eq _ := rfl
  handle_call _ := rfl

abbrev FileDescriptor := Descriptor fdPolicy
