-- SUMMARY: `socket.cpp` and `socket.hpp`: the socket class and its option tables.
import Pposix.Core.Span
import Pposix.Core.Wrapper

/-!
# Sockets

The setters and the getters are two tables with a row for each option type. A
`bool` travels as an `int`, a number as an `int`, `linger` and the timeouts as the
structures of the C library.
-/

/-! ## Types -/

/-- `socket_option`, with the values of Linux. -/
inductive SocketOption where
  | acceptconn | broadcast | debug | dontroute | error | keepalive | linger | oobinline
  | rcvbuf | rcvlowat | rcvtimeo | reuseaddr | sndbuf | sndlowat | sndtimeo | type
  deriving DecidableEq, Repr

def SocketOption.underlying : SocketOption → Int
  | .debug => 1
  | .reuseaddr => 2
  | .type => 3
  | .error => 4
  | .dontroute => 5
  | .broadcast => 6
  | .sndbuf => 7
  | .rcvbuf => 8
  | .keepalive => 9
  | .oobinline => 10
  | .linger => 13
  | .rcvlowat => 18
  | .sndlowat => 19
  | .rcvtimeo => 20
  | .sndtimeo => 21
  | .acceptconn => 30

theorem SocketOption.underlying_injective : Function.Injective underlying := by
  intro o o' h
  cases o <;> cases o' <;> first | rfl | exact absurd h (by decide)

/-- `socket_linger`. -/
structure SocketLinger where
  linger : Linger := ⟨0, 0⟩
  deriving DecidableEq, Repr

namespace SocketLinger

/-- `socket_linger(bool, seconds)`. -/
def make (enabled : Bool) (duration : Int) : SocketLinger := ⟨⟨if enabled then 1 else 0, duration⟩⟩

def get (this : SocketLinger) : Linger := this.linger

/-- `linger_.l_onoff == 1`. -/
def enabled (this : SocketLinger) : Bool := this.linger.onoff = 1

def duration (this : SocketLinger) : Int := this.linger.linger

end SocketLinger

/-- `socket_rcvtimeo` and `socket_sndtimeo`, which have the same members. -/
structure SocketTimeo where
  timeout : Timeval := ⟨0, 0⟩
  deriving DecidableEq, Repr

namespace SocketTimeo

/-- The constructor from `seconds`. -/
def ofSeconds (s : Int) : SocketTimeo := ⟨⟨s, 0⟩⟩

/-- The constructor from `seconds` and `microseconds`. -/
def make (s us : Int) : SocketTimeo := ⟨⟨s, us⟩⟩

def get (this : SocketTimeo) : Timeval := this.timeout

/-- `seconds` has the representation `int`. -/
def seconds (this : SocketTimeo) : Int := toInt this.timeout.sec

def microseconds (this : SocketTimeo) : Int := toInt this.timeout.usec

end SocketTimeo

/-- The types that select an overload of `setsockopt` or a branch of `getsockopt`. -/
inductive OptionType where
  | debug | broadcast | reuseaddr | acceptconn | keepalive | linger | oobinline | sndbuf
  | rcvbuf | error | type | dontroute | rcvlowat | rcvtimeo | sndlowat | sndtimeo
  deriving DecidableEq, Repr

/-- The values of an option type. -/
def OptionType.Value : OptionType → Type
  | .debug | .broadcast | .reuseaddr | .acceptconn | .keepalive | .oobinline | .dontroute => Bool
  | .sndbuf | .rcvbuf | .error | .type | .rcvlowat | .sndlowat => Int
  | .linger => SocketLinger
  | .rcvtimeo | .sndtimeo => SocketTimeo

/-! ## The class -/

def closeSocket (fd : Int) : Sys ErrorCode := commonCall (.close fd)

/-- The number that a call closes. -/
def Syscall.closedSocket : Syscall → Option Int
  | .close fd => some fd
  | _ => none

/-- `std::integral_constant<socket_fd, -1>` and `close_socket`. -/
def socketPolicy : Policy Int where
  null := -1
  close := closeSocket
  call := .close
  handle := Syscall.closedSocket
  close_eq _ := rfl
  handle_call _ := rfl

abbrev UniqueSocketFd := Descriptor socketPolicy

structure Socket where
  socketFd : UniqueSocketFd

instance : Wrapper Socket socketPolicy where
  member := Socket.socketFd
  ofMember := Socket.mk
  member_ofMember _ := rfl

namespace Socket

/-- `socket(unique_socket_fd)`: the new socket, and the parameter afterwards. -/
def ofFd (fd : UniqueSocketFd) : Socket × UniqueSocketFd :=
  let m := fd.moveConstruct
  (⟨m.1⟩, m.2)

/-- The parameter of the constructor is destroyed before the temporary socket. -/
def unsafeMake (dom : Int) (typ flags : Word) (prot : Int) : Sys (Result Socket) := do
  let sock ← syscall (.socket dom (typ ||| flags).toInt prot)
  if sock.ret = -1 then return .ofErrorCode (← currentErrnoCode)
  else
    let (tmp, fd) := ofFd (.ofRaw sock.ret)
    fd.destroy
    Result.ofTemporary tmp

/-! ## Setting options -/

/-- The length becomes a `socklen_t` without a check. -/
def unsafeSetsockopt (this : Socket) (l : Int) (o : SocketOption) (val : AnyCview) :
    Sys ErrorCode :=
  commonCall (.setsockopt this.socketFd.raw l o.underlying val.data (toSocklen val.length.toNat))

def setsockoptInt (this : Socket) (l : Int) (o : SocketOption) (i : Int) : Sys ErrorCode :=
  this.unsafeSetsockopt l o (.ofObject (.int i))

def setsockoptBool (this : Socket) (l : Int) (o : SocketOption) (b : Bool) : Sys ErrorCode :=
  this.setsockoptInt l o (if b then 1 else 0)

/-- The overloads of `setsockopt`; `none` where there is none for the type. -/
def setsockopt (this : Socket) (l : Int) : (t : OptionType) → t.Value → Option (Sys ErrorCode)
  | .debug, (d : Bool) => some (this.setsockoptBool l .debug d)
  | .broadcast, (b : Bool) => some (this.setsockoptBool l .broadcast b)
  | .reuseaddr, (r : Bool) => some (this.setsockoptBool l .reuseaddr r)
  | .keepalive, (k : Bool) => some (this.setsockoptBool l .keepalive k)
  | .linger, (lin : SocketLinger) =>
    some (this.unsafeSetsockopt l .linger (.ofObject (.linger lin.get)))
  | .oobinline, (o : Bool) => some (this.setsockoptBool l .oobinline o)
  | .sndbuf, (s : Int) => some (this.setsockoptInt l .sndbuf s)
  | .rcvbuf, (r : Int) => some (this.setsockoptInt l .rcvbuf r)
  | .dontroute, (d : Bool) => some (this.setsockoptBool l .dontroute d)
  | .rcvlowat, (r : Int) => some (this.setsockoptInt l .rcvlowat r)
  | .rcvtimeo, (r : SocketTimeo) =>
    some (this.unsafeSetsockopt l .rcvtimeo (.ofObject (.timeval r.get)))
  | .sndlowat, (s : Int) => some (this.setsockoptInt l .sndlowat s)
  | .sndtimeo, (r : SocketTimeo) =>
    some (this.unsafeSetsockopt l .sndtimeo (.ofObject (.timeval r.get)))
  | .acceptconn, _ | .error, _ | .type, _ => none

/-! ## Getting options -/

/-- The result, and the object that `val` points to after the call. -/
def unsafeGetsockopt (this : Socket) (l : Int) (o : SocketOption) (val : AnyView) :
    Sys (Result Nat × Data) := do
  if val.length.toNat > UInt32.size - 1 then
    return (.ofErrorCode (makeErrnoCode eoverflow), val.data)
  else
    let len := toSocklen val.length.toNat
    let r ← syscall (.getsockopt this.socketFd.raw l o.underlying val.data len)
    if r.ret = -1 then return (.ofErrorCode (← currentErrnoCode), r.written val.data)
    else return (.ofValue (r.optlen len), r.written val.data)

/-- `getsockopt_int`, `getsockopt_bool` and `getsockopt_struct`: a zeroed object is
passed by address, and `func` makes the result of what it holds afterwards. -/
def getsockoptObject {α : Type} (this : Socket) (l : Int) (o : SocketOption) (val : OptVal)
    (func : Data → α) : Sys (Result α) := do
  let (result, val) ← this.unsafeGetsockopt l o (.ofObject val)
  resultMap result fun _ => return .ofValue (func val)

def getsockoptInt (this : Socket) (l : Int) (o : SocketOption) : Sys (Result Int) :=
  this.getsockoptObject l o (.int 0) fun val => val.asInt

def getsockoptBool (this : Socket) (l : Int) (o : SocketOption) : Sys (Result Bool) :=
  this.getsockoptObject l o (.int 0) fun val => val.asInt != 0

def getsockoptLinger (this : Socket) (l : Int) (o : SocketOption) : Sys (Result SocketLinger) :=
  this.getsockoptObject l o (.linger ⟨0, 0⟩) fun val => ⟨val.asLinger⟩

def getsockoptTimeo (this : Socket) (l : Int) (o : SocketOption) : Sys (Result SocketTimeo) :=
  this.getsockoptObject l o (.timeval ⟨0, 0⟩) fun val => ⟨val.asTimeval⟩

def getsockopt (this : Socket) (l : Int) : (t : OptionType) → Sys (Result t.Value)
  | .debug => this.getsockoptBool l .debug
  | .broadcast => this.getsockoptBool l .broadcast
  | .reuseaddr => this.getsockoptBool l .reuseaddr
  | .acceptconn => this.getsockoptBool l .acceptconn
  | .keepalive => this.getsockoptBool l .keepalive
  | .linger => this.getsockoptLinger l .linger
  | .oobinline => this.getsockoptBool l .oobinline
  | .sndbuf => this.getsockoptInt l .sndbuf
  | .rcvbuf => this.getsockoptInt l .rcvbuf
  | .error => this.getsockoptInt l .error
  | .type => this.getsockoptInt l .type
  | .dontroute => this.getsockoptBool l .dontroute
  | .rcvlowat => this.getsockoptInt l .rcvlowat
  | .rcvtimeo => this.getsockoptTimeo l .rcvtimeo
  | .sndlowat => this.getsockoptInt l .sndlowat
  | .sndtimeo => this.getsockoptTimeo l .sndtimeo

/-! ## The calls -/

theorem unsafeSetsockopt_call (this : Socket) (l : Int) (o : SocketOption) (val : AnyCview)
    (e : Errno) :
    this.unsafeSetsockopt l o val e =
      .call (.setsockopt this.socketFd.raw l o.underlying val.data (toSocklen val.length.toNat))
        fun r => .done (r.errorCode, r.errno) :=
  commonCall_apply ..

/-- The call that `unsafe_getsockopt` makes of a length that passes its test. -/
theorem unsafeGetsockopt_of_fits (this : Socket) (l : Int) (o : SocketOption) {val : AnyView}
    (hlen : ¬ val.length.toNat > UInt32.size - 1) (e : Errno) :
    this.unsafeGetsockopt l o val e =
      .call (.getsockopt this.socketFd.raw l o.underlying val.data (toSocklen val.length.toNat))
        fun r => .done ((if r.ret = -1 then .error ⟨r.errno⟩
          else .value (r.optlen (toSocklen val.length.toNat)), r.written val.data), r.errno) := by
  unfold unsafeGetsockopt
  rw [if_neg hlen]
  refine congrArg (Prog.call _) (funext fun r => ?_)
  change ((if r.ret = -1 then (_ : Sys (Result Nat × Data)) else _) r.errno) = _
  split <;> rfl

end Socket
