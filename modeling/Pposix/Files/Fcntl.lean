-- SUMMARY: `fcntl.cpp`: opening files and controlling descriptors.
import Pposix.Files.FileDescriptor

/-! # fcntl -/

/-- `capi::fcntl_cmd`. The enumerators can be combined with `operator|`, so every
`int` is a command. -/
structure FcntlCmd where
  value : Int
  deriving DecidableEq, Repr

namespace FcntlCmd

/-- `F_DUPFD`. On Linux `F_RDLCK` has the same value. -/
def dupfd : FcntlCmd := ⟨0⟩

/-- `F_DUPFD_CLOEXEC`. -/
def dupfdCloexec : FcntlCmd := ⟨1030⟩

end FcntlCmd

/-- `capi::open_flag`, with the values of Linux. -/
inductive OpenFlag where
  | cloexec | creat | directory | excl | noctty | nofollow | truncate | append | dsync
  | nonblock | rsync | sync | rdonly
  deriving DecidableEq, Repr

def OpenFlag.underlying : OpenFlag → Word
  | .cloexec => 524288
  | .creat => 64
  | .directory => 65536
  | .excl => 128
  | .noctty => 256
  | .nofollow => 131072
  | .truncate => 512
  | .append => 1024
  | .dsync => 4096
  | .nonblock => 2048
  | .rsync | .sync => 1052672
  | .rdonly => 0

/-- `capi::access_mode`, with the values of Linux, where `exec` is `O_PATH`. -/
inductive AccessMode where
  | exec | read | readWrite | write | accmode
  deriving DecidableEq, Repr

def AccessMode.underlying : AccessMode → Word
  | .exec => 2097152
  | .read => 0
  | .readWrite => 2
  | .write => 1
  | .accmode => 3

namespace Capi

def fcntl (fd : Int) (cmd : FcntlCmd) : Sys ErrorCode :=
  commonCall (.fcntl fd cmd.value .none)

def fcntlInt (fd : Int) (cmd : FcntlCmd) (arg : Int) : Sys ErrorCode :=
  commonCall (.fcntl fd cmd.value (.int arg))

def fcntlPtr (fd : Int) (cmd : FcntlCmd) (arg : Ptr) : Sys ErrorCode :=
  commonCall (.fcntl fd cmd.value (.ptr (.memory arg)))

def open_ (path : String) (mode flags : Word) : Sys (Result Int) :=
  commonResultMap id (.open_ path (mode ||| flags) none)

def openPermission (path : String) (mode flags permission : Word) : Sys (Result Int) :=
  commonResultMap id (.open_ path (mode ||| flags) (some permission))

end Capi
