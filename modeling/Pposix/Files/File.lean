-- SUMMARY: `file.cpp` and `file.hpp`: the file class.
import Pposix.Core.Span
import Pposix.Files.Fcntl

/-!
# Files

`file::close` calls `::close` on the number that its member stores. It does not go
through `descriptor::close`, so the number stays in the member.
-/

inductive FileSeek where
  | set
  | current
  | end_
  deriving DecidableEq, Repr

/-- `SEEK_SET`, `SEEK_CUR` and `SEEK_END`. -/
def FileSeek.underlying : FileSeek → Int
  | .set => 0
  | .current => 1
  | .end_ => 2

structure File where
  fd : FileDescriptor

instance : Wrapper File fdPolicy where
  member := File.fd
  ofMember := File.mk
  member_ofMember _ := rfl

namespace File

def close (this : File) : Sys ErrorCode := commonCall (.close this.fd.raw)

def lseek (this : File) (offset : Int) (wh : FileSeek) : Sys (Result Int) := do
  let lseekCount ← syscall (.lseek this.fd.raw offset wh.underlying)
  if lseekCount.ret = -1 then return .ofErrorCode (← currentErrnoCode)
  else return .ofValue lseekCount.ret

def read (this : File) (buffer : ByteSpan) : Sys (Result Int) :=
  commonResultCall (.read this.fd.raw buffer.data buffer.length)

def write (this : File) (buffer : ByteCspan) : Sys (Result Int) :=
  commonResultCall (.write this.fd.raw buffer.data buffer.length)

/-- The overload without a permission. -/
def open_ (path : String) (access flags : Word) : Sys (Result File) := do
  resultMap (← Capi.open_ path access flags) fun fd => Result.ofTemporary (Wrapper.ofRaw fd)

def openPermission (path : String) (access flags perm : Word) : Sys (Result File) := do
  resultMap (← Capi.openPermission path access flags perm)
    fun fd => Result.ofTemporary (Wrapper.ofRaw fd)

end File
