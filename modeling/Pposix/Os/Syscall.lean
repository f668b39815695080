-- SUMMARY: The operating system as the library sees it: system and libc calls, their answers, errno, and the programs that make them.
import Pposix.Base.Program

/-!
# System calls

A wrapper of the library is a program over `errno` that makes the calls of
`Syscall`. The arguments of a call are the values that reach the kernel, after the
conversions to the C parameter types. The answer is chosen by the environment: it
says what the call returned and which value it left in `errno`. A call that
succeeds may leave anything there.
-/

/-! ## C types -/

/-- A pointer; `0` is the null pointer. -/
abbrev Ptr := Int

/-- `std::size_t` on a 64-bit target. -/
abbrev SizeT := UInt64

/-- An `int`, `unsigned` or `mode_t` that is used as a set of flags. -/
abbrev Word := BitVec 32

/-- The value of `errno`, or a `std::errc`. -/
abbrev Errno := Int

/-- `EOVERFLOW`, which `std::errc::value_too_large` names. -/
def eoverflow : Errno := 75

/-- Conversion to `int`: modulo `2 ^ 32`, into the signed range. -/
def toInt (i : Int) : Int := i.bmod UInt32.size

/-- Conversion of a size to `socklen_t`, an unsigned 32-bit integer. -/
def toSocklen (n : Nat) : Nat := n % UInt32.size

/-- Conversion to `size_t` keeps what is one. -/
theorem toNat_ofInt_natCast {n : Nat} (h : n < UInt64.size) : (UInt64.ofInt n).toNat = n := by
  have hlt : n < 18446744073709551616 := h
  have hmod : ((n : Int) % 18446744073709551616).toNat = n := by omega
  change (UInt64.ofNat ((n : Int) % 18446744073709551616).toNat).toNat = n
  rw [hmod]
  exact UInt64.toNat_ofNat_of_lt hlt

/-- `::linger`. -/
structure Linger where
  onoff : Int
  linger : Int
  deriving DecidableEq, Repr

/-- `::timeval`. -/
structure Timeval where
  sec : Int
  usec : Int
  deriving DecidableEq, Repr

/-- An object that the library passes by address in a socket option call. -/
inductive OptVal where
  | int (i : Int)
  | linger (l : Linger)
  | timeval (t : Timeval)
  deriving DecidableEq, Repr

/-- `sizeof` the object. -/
def OptVal.size : OptVal → Nat
  | .int _ => 4
  | .linger _ => 8
  | .timeval _ => 16

/-- A `void *` that reaches the kernel: the address of an object of the library, or
memory of the caller. -/
inductive Data where
  | object (v : OptVal)
  | memory (p : Ptr)
  deriving DecidableEq, Repr

/-- The `int` at the address. An object of another type keeps its own value: the
bytes that two types share are not modelled. -/
def Data.asInt : Data → Int
  | .object (.int i) => i
  | _ => 0

def Data.asLinger : Data → Linger
  | .object (.linger l) => l
  | _ => ⟨0, 0⟩

def Data.asTimeval : Data → Timeval
  | .object (.timeval t) => t
  | _ => ⟨0, 0⟩

/-- The optional last argument of `::fcntl` and `::ioctl`, and an argument of `::syslog`. -/
inductive Vararg where
  | none
  | int (i : Int)
  | ptr (p : Data)
  deriving DecidableEq, Repr

/-- `::timespec`. -/
structure Timespec where
  sec : Int
  nsec : Int
  deriving DecidableEq, Repr

/-- `::mq_attr`. -/
structure MqAttr where
  flags : Int := 0
  maxmsg : Int := 0
  msgsize : Int := 0
  curmsgs : Int := 0
  deriving DecidableEq, Repr

/-- The member of a `::sigval` that was written. -/
inductive Sigval where
  | int (i : Int)
  | ptr (p : Ptr)
  deriving DecidableEq, Repr

/-- `::sigevent`. -/
structure Sigevent where
  notify : Int
  signo : Int
  value : Sigval
  notifyFunction : Ptr
  notifyAttributes : Ptr
  deriving DecidableEq, Repr

/-- An argument of `::mq_open` after the flags. -/
inductive MqOpenArg where
  | mode (m : Word)
  | attr (maxmsg msgsize : Int)
  deriving DecidableEq, Repr

/-- `::epoll_event`. The members of `data` share its eight bytes. -/
structure EpollEvent where
  events : Word := 0
  data : BitVec 64 := 0
  deriving DecidableEq, Repr

/-! ## Calls and answers -/

inductive Syscall where
  | close (fd : Int)
  | lseek (fd offset whence : Int)
  | read (fd : Int) (buf : Ptr) (count : SizeT)
  | write (fd : Int) (buf : Ptr) (count : SizeT)
  | open_ (path : String) (flags : Word) (mode : Option Word)
  | fcntl (fd cmd : Int) (arg : Vararg)
  | ioctl (fd request : Int) (arg : Vararg)
  | opendir (path : String)
  | fdopendir (fd : Int)
  | closedir (dir : Ptr)
  | mmap (addr : Ptr) (len : SizeT) (prot flags : Word) (fd off : Int)
  | munmap (addr : Ptr) (len : SizeT)
  | socket (domain type protocol : Int)
  | setsockopt (fd level option : Int) (val : Data) (len : Nat)
  | getsockopt (fd level option : Int) (val : Data) (len : Nat)
  | epollCreate (size : Int)
  | epollCreate1 (flags : Int)
  | epollCtl (epfd op fd : Int) (event : Option EpollEvent)
  | epollWait (epfd : Int) (events : Ptr) (maxevents timeout : Int)
  | epollPwait (epfd : Int) (events : Ptr) (maxevents timeout : Int) (sigmask : Ptr)
  | mqOpen (name : String) (flags : Word) (args : List MqOpenArg)
  | mqClose (mqd : Int)
  | mqUnlink (name : String)
  | mqGetattr (mqd : Int)
  | mqSetattr (mqd : Int) (attr : MqAttr)
  | mqNotify (mqd : Int) (event : Option Sigevent)
  | mqSend (mqd : Int) (msg : Ptr) (len : SizeT) (prio : UInt32)
  | mqTimedsend (mqd : Int) (msg : Ptr) (len : SizeT) (prio : UInt32) (timeout : Timespec)
  | mqReceive (mqd : Int) (msg : Ptr) (len : SizeT)
  | mqTimedreceive (mqd : Int) (msg : Ptr) (len : SizeT) (timeout : Timespec)
  | sysconf (name : Int)
  | confstr (name : Int) (buf : Ptr) (len : SizeT)
  | setlogmask (maskpri : Word)
  | openlog (ident : Ptr) (option facility : Word)
  | closelog
  | syslog (priority : Word) (format : Ptr) (args : List Vararg)
  deriving DecidableEq, Repr

/-- What a call wrote through its pointer arguments. -/
inductive Out where
  | nothing
  | option (v : OptVal) (len : Nat)
  | mqAttr (attr : MqAttr)
  | priority (prio : UInt32)
  deriving DecidableEq, Repr

structure Response where
  ret : Int
  /-- The value of `errno` after the call. -/
  errno : Errno
  out : Out := .nothing
  deriving DecidableEq, Repr

/-- The object at an address that was passed, after the call. -/
def Response.written (r : Response) (val : Data) : Data :=
  match r.out with
  | .option v _ => .object v
  | _ => val

/-- The length that was passed by address, after the call. -/
def Response.optlen (r : Response) (len : Nat) : Nat :=
  match r.out with
  | .option _ len' => len'
  | _ => len

/-- A zeroed `::mq_attr` that was passed by address, after the call. -/
def Response.mqAttr (r : Response) : MqAttr :=
  match r.out with
  | .mqAttr attr => attr
  | _ => {}

/-- A zero priority that was passed by address, after the call. -/
def Response.priority (r : Response) : UInt32 :=
  match r.out with
  | .priority prio => prio
  | _ => 0

/-- POSIX: a call that fails with `-1` sets `errno` to a value other than zero. -/
def Response.Posix (r : Response) : Prop := r.ret = -1 → r.errno ≠ 0

instance (r : Response) : Decidable r.Posix := inferInstanceAs (Decidable (_ → _))

/-! ## Programs over `errno` -/

/-- A program of the library. -/
abbrev Sys (α : Type) := StateT Errno (Prog Syscall Response) α

/-- Make a call. It leaves `errno` as the answer says. -/
def syscall (c : Syscall) : Sys Response :=
  fun _ => .call c fun r => .done (r, r.errno)

/-- What is left of a program when its result is wrapped. -/
theorem Sys.return_apply {α β : Type} (p : Sys α) (f : α → β) (e : Errno) :
    (do return f (← p) : Sys β) e = (p e).bind fun x => .done (f x.1, x.2) := rfl

/-- Execute from a value of `errno`. -/
def Sys.exec {σ α : Type} (env : Prog.Env σ Syscall Response) (e : Errno) (s : σ) (p : Sys α) :
    Option ((α × Errno) × σ) :=
  (p e).exec env s

/-- A program of one call is the answer to it, and what is made of that. -/
theorem Sys.exec_one {σ α β : Type} (env : Prog.Env σ Syscall Response) {e : Errno} (s : σ)
    {c : Syscall} {p : Sys α} {h : Response → α} (g : α → β)
    (hp : p e = .call c fun r => .done (h r, r.errno)) :
    Sys.exec env e s (do return g (← p)) =
      (env s c).map fun x => ((g (h x.1), x.1.errno), x.2) := by
  unfold Sys.exec
  rw [Sys.return_apply, hp]
  simp only [Prog.bind, Prog.exec]
  cases env s c <;> rfl
