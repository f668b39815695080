-- SUMMARY: `lnx/epoll.cpp`: epoll instances.
import Pposix.Core.EnumFlag
import Pposix.Core.Span
import Pposix.Files.FileDescriptor

/-! # epoll -/

/-- `capi::epoll_event_flag`. -/
inductive EpollEventFlag where
  | readAvailable | writeAvailable | socketClosed | fdException | fdError | fdHup
  | edgeTriggered | oneShot | wakeup | exclusive
  deriving DecidableEq, Repr

def EpollEventFlag.underlying : EpollEventFlag → Word
  | .readAvailable => 1
  | .fdException => 2
  | .writeAvailable => 4
  | .fdError => 8
  | .fdHup => 16
  | .socketClosed => 8192
  | .exclusive => 268435456
  | .wakeup => 536870912
  | .oneShot => 1073741824
  | .edgeTriggered => 2147483648

/-- `capi::epoll_flag`. -/
inductive EpollFlag where
  | cloexec
  deriving DecidableEq, Repr

def EpollFlag.underlying : EpollFlag → Word
  | .cloexec => 524288

/-- `capi::epoll_operation`. -/
inductive EpollOperation where
  | add | remove | modify
  deriving DecidableEq, Repr

def EpollOperation.underlying : EpollOperation → Int
  | .add => 1
  | .remove => 2
  | .modify => 3

/-! ## Events -/

namespace EpollEvent

/-! ### `capi::epoll_event` -/

/-- The constructor without data. The others call it, and write one member of the data. -/
def ofFlags (eventFlags : EnumFlag 32) : EpollEvent := { events := eventFlags.flags }

def ofPtr (eventFlags : EnumFlag 32) (data : Ptr) : EpollEvent :=
  { ofFlags eventFlags with data := .ofInt 64 data }

def ofFd (eventFlags : EnumFlag 32) (data : Int) : EpollEvent :=
  { ofFlags eventFlags with data := (BitVec.ofInt 32 data).setWidth 64 }

def ofU32 (eventFlags : EnumFlag 32) (data : UInt32) : EpollEvent :=
  { ofFlags eventFlags with data := data.toBitVec.setWidth 64 }

def ofU64 (eventFlags : EnumFlag 32) (data : UInt64) : EpollEvent :=
  { ofFlags eventFlags with data := data.toBitVec }

/-! ### The members of `data`, the first bytes of which are the low ones -/

def dataPtr (this : EpollEvent) : Ptr := this.data.toNat

def dataFd (this : EpollEvent) : Int := (this.data.setWidth 32).toInt

def dataU32 (this : EpollEvent) : UInt32 := ⟨this.data.setWidth 32⟩

def dataU64 (this : EpollEvent) : UInt64 := ⟨this.data⟩

/-! ### `lnx::epoll_event` -/

def hasFlag (this : EpollEvent) (flag : EpollEventFlag) : Bool :=
  this.events &&& flag.underlying != 0

def readAvailable (this : EpollEvent) : Bool := this.hasFlag .readAvailable

def writeAvailable (this : EpollEvent) : Bool := this.hasFlag .writeAvailable

def socketClosed (this : EpollEvent) : Bool := this.hasFlag .socketClosed

def fdException (this : EpollEvent) : Bool := this.hasFlag .fdException

def fdError (this : EpollEvent) : Bool := this.hasFlag .fdError

def fdHup (this : EpollEvent) : Bool := this.hasFlag .fdHup

end EpollEvent

/-! ## Control commands -/

structure EpollAdd where
  fd : Int
  event : EpollEvent

structure EpollRemove where
  fd : Int

/-- `epoll_modify`. Every constructor makes the same static assertion about its flags. -/
structure EpollModify where
  fd : Int
  event : EpollEvent
  checked : (EnumFlag.mk event.events).hasFlag ⟨EpollEventFlag.exclusive.underlying⟩ = false

namespace EpollModify

variable (fd : Int) (flags : EnumFlag 32)
  (checked : flags.hasFlag ⟨EpollEventFlag.exclusive.underlying⟩ = false)

def make : EpollModify := ⟨fd, .ofFlags flags, checked⟩

def ofPtr (data : Ptr) : EpollModify := ⟨fd, .ofPtr flags data, checked⟩

def ofFd (data : Int) : EpollModify := ⟨fd, .ofFd flags data, checked⟩

def ofU32 (data : UInt32) : EpollModify := ⟨fd, .ofU32 flags data, checked⟩

def ofU64 (data : UInt64) : EpollModify := ⟨fd, .ofU64 flags data, checked⟩

end EpollModify

/-! ## Instances -/

structure Epoll where
  epollFd : FileDescriptor

instance : Wrapper Epoll fdPolicy where
  member := Epoll.epollFd
  ofMember := Epoll.mk
  member_ofMember _ := rfl

/-- `unsafe_make_epoll`. -/
def unsafeMakeEpoll (fd : Int) : Epoll := Wrapper.ofRaw fd

namespace Epoll

def unsafeCreate (size : Int) : Sys (Result Epoll) := do
  let res ← syscall (.epollCreate size)
  if res.ret = -1 then return .ofErrorCode (← currentErrnoCode)
  else Result.ofTemporary (unsafeMakeEpoll res.ret)

def unsafeCreate1 (flags : Word) : Sys (Result Epoll) := do
  let res ← syscall (.epollCreate1 flags.toInt)
  if res.ret = -1 then return .ofErrorCode (← currentErrnoCode)
  else Result.ofTemporary (unsafeMakeEpoll res.ret)

/-- `create()`. The size is ignored, but must not be zero. -/
def create : Sys (Result Epoll) := unsafeCreate 1

/-- `create(epoll_cloexec)`. -/
def createCloexec : Sys (Result Epoll) := unsafeCreate1 EpollFlag.cloexec.underlying

def unsafeCtl (this : Epoll) (op : EpollOperation) (fd : Int) (event : Option EpollEvent) :
    Sys ErrorCode :=
  commonCall (.epollCtl this.epollFd.raw op.underlying fd event)

/-- `ctl(epoll_add)`. -/
def ctlAdd (this : Epoll) (add : EpollAdd) : Sys ErrorCode :=
  this.unsafeCtl .add add.fd (some add.event)

/-- `ctl(epoll_remove)`. -/
def ctlRemove (this : Epoll) (remove : EpollRemove) : Sys ErrorCode :=
  this.unsafeCtl .remove remove.fd none

/-- `ctl(epoll_modify)`. -/
def ctlModify (this : Epoll) (mod : EpollModify) : Sys ErrorCode :=
  this.unsafeCtl .modify mod.fd (some mod.event)

/-- The length becomes an `int` argument without a check. The macro yields an error
code, which becomes a `result<int>`. -/
def wait (this : Epoll) (events : Span) (timeout : Int) : Sys (Result Int) := do
  return .ofErrorCode (← commonCall
    (.epollWait this.epollFd.raw events.data (toInt events.length.toNat) timeout))

def pwait (this : Epoll) (events : Span) (timeout : Int) (sigmask : Ptr) : Sys (Result Int) := do
  return .ofErrorCode (← commonCall
    (.epollPwait this.epollFd.raw events.data (toInt events.length.toNat) timeout sigmask))

end Epoll
