-- SUMMARY: Epoll instances in the kernel, the calls of `epoll` on them, and their log, which replays on watches.
import Pposix.Base.Refs
import Pposix.Lnx.Interest
import Pposix.Ownership.Factories

/-!
# Instances

The kernel resolves a number to a description, in the table of the process that calls or,
for a call that began earlier, among what the call holds since then. It drops what was
registered when the last descriptor of a description is closed. The threads of several
processes make, use and destroy instances, in any interleaving, while other code opens,
duplicates and closes descriptors.
-/

namespace Interest

open EpollEventFlag

/-! ## The kernel -/

/-- `EPOLLWAKEUP`, `EPOLLONESHOT`, `EPOLLET` and `EPOLLEXCLUSIVE`. -/
def privateBits : Word := 0xF0000000

/-- `EPOLLERR` and `EPOLLHUP`. -/
def alwaysBits : Word := 24

/-- `EBADF`. -/
def ebadf : Errno := 9

/-- An item after a report. -/
def fired (item : EpollEvent) : EpollEvent :=
  if item.events &&& oneShot.underlying ≠ 0 then
    { item with events := item.events &&& privateBits }
  else item

/-- The registered events of every instance. -/
abbrev Items := Lists EpollEvent

namespace Items

/-- The event that is written for a place for which the conditions in `mask` hold. -/
def report (l : Items) (inst : Nat) (x : Key × Word) : Option Report :=
  (l inst x.1).bind fun item =>
    let events := item.events &&& x.2
    if events ≠ 0 ∧ x.2 &&& privateBits = 0 then some ⟨x.1, ⟨events, item.data⟩⟩ else none

/-- `::epoll_ctl` on a list. -/
def ctl (l : Items) (inst : Nat) (op : Int) (key : Key) (event : Option EpollEvent) :
    Option Items :=
  if op = EpollOperation.remove.underlying then
    if (l inst key).isSome then some (l.put inst key none) else none
  else do
    let event ← event
    let item : EpollEvent := { event with events := event.events ||| alwaysBits }
    if op = EpollOperation.add.underlying ∧ l inst key = none then
      some (l.put inst key (some item))
    else if op = EpollOperation.modify.underlying ∧ (l inst key).isSome then
      some (l.put inst key (some item))
    else none

/-- `::epoll_wait` on a list: the events that are written, at most `maxevents` of them. -/
def wait (l : Items) (inst : Nat) (maxevents : Int) (ready : List (Key × Word)) :
    Option (List Report × Items) :=
  if 0 < maxevents ∧ ready.length ≤ maxevents ∧ (ready.map Prod.fst).Nodup then
    (ready.mapM (l.report inst)).map fun reports =>
      (reports, l.fire fired inst (ready.map Prod.fst))
  else none

end Items

/-- The descriptors, which descriptions are instances, and their lists. -/
structure Kernel (η : Type) where
  refs : Refs (Desc η)
  epolls : Nat → Bool
  items : Items

/-- The kernel fails a call, makes an instance, or carries the call out and leaves `noise`
in `errno`. A close that fails may still release its descriptor. A wait finds the
conditions in `ready`. -/
inductive Choice where
  | fail (err : Errno) (released : Bool)
  | created (noise : Errno) (fd file : Nat)
  | done (noise : Errno) (ready : List (Key × Word))

namespace Kernel

variable {η : Type} [DecidableEq η]

/-- A new description and its first descriptor. -/
def attach (k : Kernel η) (d : Desc η) (file : Nat) (epoll : Bool) : Option (Kernel η) :=
  if k.refs.find d = none ∧ k.refs.holds file = false then
    some { k with
      refs := k.refs.insert d file
      epolls := Function.update k.epolls file epoll }
  else none

/-- Another descriptor of the description that `d` refers to. -/
def share (k : Kernel η) (d d' : Desc η) : Option (Kernel η) := do
  let file ← k.refs.find d
  if k.refs.find d' = none then some { k with refs := k.refs.insert d' file } else none

/-- A descriptor is free again. If it was the last one of a description, this goes. -/
def release (k : Kernel η) (d : Desc η) : Kernel η :=
  match k.refs.last d with
  | none => { k with refs := k.refs.erase d }
  | some file => {
      refs := k.refs.erase d
      epolls := Function.update k.epolls file false
      items := k.items.drop file }

/-- The kernel after a call that failed. -/
def failed (k : Kernel η) (home : η) (released : Bool) : Syscall → Kernel η
  | .close fd => if released then k.release (home, fd) else k
  | _ => k

/-- The instance that a number refers to. -/
def inst (k : Kernel η) (via : η) (epfd : Int) : Option Nat :=
  (k.refs.find (via, epfd)).filter k.epolls

def ctl (k : Kernel η) (via : η) (epfd op fd : Int) (event : Option EpollEvent) :
    Option (Kernel η) := do
  let inst ← k.inst via epfd
  let file ← k.refs.find (via, fd)
  if inst ≠ file then
    (k.items.ctl inst op ⟨fd, file⟩ event).map fun items => { k with items := items }
  else none

def wait (k : Kernel η) (via : η) (epfd maxevents : Int) (ready : List (Key × Word)) :
    Option (List Report × Kernel η) := do
  let inst ← k.inst via epfd
  (k.items.wait inst maxevents ready).map fun x => (x.1, { k with items := x.2 })

end Kernel

section Answers

variable {η : Type} [DecidableEq η]

/-- The answer to a call, and the events that it writes. What is opened or closed is a
descriptor of `home`, and other numbers are looked up in `via`. A negative number is no
descriptor. -/
def answer (home via : η) (choice : Choice) :
    Prog.Env (Kernel η × List Report) Syscall Response := fun (k, reports) c =>
  match choice, c with
  | _, .close (.negSucc _) => some (⟨-1, ebadf, .nothing⟩, k, reports)
  | .fail err released, c =>
    if err ≠ 0 then some (⟨-1, err, .nothing⟩, k.failed home released c, reports) else none
  | .created noise fd file, .epollCreate size =>
    if 0 < size then
      (k.attach (home, fd) file true).map fun k => (⟨fd, noise, .nothing⟩, k, reports)
    else none
  | .created noise fd file, .epollCreate1 flags =>
    if flags = 0 ∨ flags = EpollFlag.cloexec.underlying.toInt then
      (k.attach (home, fd) file true).map fun k => (⟨fd, noise, .nothing⟩, k, reports)
    else none
  | .done noise _, .close fd =>
    if (k.refs.find (home, fd)).isSome then
      some (⟨0, noise, .nothing⟩, k.release (home, fd), reports)
    else none
  | .done noise _, .epollCtl epfd op fd event =>
    (k.ctl via epfd op fd event).map fun k => (⟨0, noise, .nothing⟩, k, reports)
  | .done noise ready, .epollWait epfd _ maxevents _ =>
    (k.wait via epfd maxevents ready).map fun x => (⟨x.1.length, noise, .nothing⟩, x.2, x.1)
  | .done noise ready, .epollPwait epfd _ maxevents _ _ =>
    (k.wait via epfd maxevents ready).map fun x => (⟨x.1.length, noise, .nothing⟩, x.2, x.1)
  | _, _ => none

theorem answer_close_null (home via : η) (choice : Choice) (s : Kernel η × List Report) :
    answer home via choice s (fdPolicy.call fdPolicy.null) = some (⟨-1, ebadf, .nothing⟩, s) := by
  cases choice <;> rfl

end Answers

/-! ## The calls -/

/-- The functions of `epoll`, and its destructor. -/
inductive Call where
  | unsafeCreate (size : Int)
  | unsafeCreate1 (flags : Word)
  | create
  | createCloexec
  | destroy (this : Epoll)
  | unsafeCtl (this : Epoll) (op : EpollOperation) (fd : Int) (event : Option EpollEvent)
  | ctlAdd (this : Epoll) (add : EpollAdd)
  | ctlRemove (this : Epoll) (remove : EpollRemove)
  | ctlModify (this : Epoll) (mod : EpollModify)
  | wait (this : Epoll) (events : Span) (timeout : Int)
  | pwait (this : Epoll) (events : Span) (timeout : Int) (sigmask : Ptr)

/-- What a caller sees of its call. -/
inductive Seen where
  | created (r : Result Epoll)
  | destroyed (this : Epoll)
  | changed (this : Epoll) (op : EpollOperation) (fd : Int) (event : Option EpollEvent)
      (ec : ErrorCode)
  | waited (this : Epoll) (events : Span) (r : Result Int)

namespace Call

def run : Call → Sys Seen
  | .unsafeCreate size => do return .created (← Epoll.unsafeCreate size)
  | .unsafeCreate1 flags => do return .created (← Epoll.unsafeCreate1 flags)
  | .create => do return .created (← Epoll.create)
  | .createCloexec => do return .created (← Epoll.createCloexec)
  | .destroy this => do
    let _ ← Wrapper.destroy this
    return .destroyed this
  | .unsafeCtl this op fd event => do
    return .changed this op fd event (← this.unsafeCtl op fd event)
  | .ctlAdd this add => do
    return .changed this .add add.fd (some add.event) (← this.ctlAdd add)
  | .ctlRemove this remove => do
    return .changed this .remove remove.fd none (← this.ctlRemove remove)
  | .ctlModify this mod => do
    return .changed this .modify mod.fd (some mod.event) (← this.ctlModify mod)
  | .wait this events timeout => do return .waited this events (← this.wait events timeout)
  | .pwait this events timeout sigmask => do
    return .waited this events (← this.pwait events timeout sigmask)

/-- The first system call, and the only one but for the destructor of an empty object. -/
def syscall : Call → Syscall
  | .unsafeCreate size => .epollCreate size
  | .unsafeCreate1 flags => .epollCreate1 flags.toInt
  | .create => .epollCreate 1
  | .createCloexec => .epollCreate1 EpollFlag.cloexec.underlying.toInt
  | .destroy this => .close this.epollFd.raw
  | .unsafeCtl this op fd event => .epollCtl this.epollFd.raw op.underlying fd event
  | .ctlAdd this add =>
    .epollCtl this.epollFd.raw EpollOperation.add.underlying add.fd (some add.event)
  | .ctlRemove this remove =>
    .epollCtl this.epollFd.raw EpollOperation.remove.underlying remove.fd none
  | .ctlModify this mod =>
    .epollCtl this.epollFd.raw EpollOperation.modify.underlying mod.fd (some mod.event)
  | .wait this events timeout =>
    .epollWait this.epollFd.raw events.data (toInt events.length.toNat) timeout
  | .pwait this events timeout sigmask =>
    .epollPwait this.epollFd.raw events.data (toInt events.length.toNat) timeout sigmask

/-- What the caller sees of the answer. -/
def sees (r : Response) : Call → Seen
  | .unsafeCreate _ | .unsafeCreate1 _ | .create | .createCloexec =>
    .created (r.result Wrapper.ofRaw)
  | .destroy this => .destroyed this
  | .unsafeCtl this op fd event => .changed this op fd event r.errorCode
  | .ctlAdd this add => .changed this .add add.fd (some add.event) r.errorCode
  | .ctlRemove this remove => .changed this .remove remove.fd none r.errorCode
  | .ctlModify this mod => .changed this .modify mod.fd (some mod.event) r.errorCode
  | .wait this events _ | .pwait this events _ _ => .waited this events (.error r.errorCode)

/-- What the call leaves in `errno`: to make an instance closes an empty object. -/
def leaves (r : Response) : Call → Errno
  | .unsafeCreate _ | .unsafeCreate1 _ | .create | .createCloexec =>
    if r.ret ≠ -1 then ebadf else r.errno
  | _ => r.errno

theorem wait_apply (this : Epoll) (events : Span) (timeout : Int) (e : Errno) :
    this.wait events timeout e = .call (syscall (.wait this events timeout)) fun r =>
      .done (.error r.errorCode, r.errno) := by
  rw [Epoll.wait, Sys.return_apply, commonCall_apply]
  rfl

theorem pwait_apply (this : Epoll) (events : Span) (timeout : Int) (sigmask : Ptr) (e : Errno) :
    this.pwait events timeout sigmask e = .call (syscall (.pwait this events timeout sigmask))
      fun r => .done (.error r.errorCode, r.errno) := by
  rw [Epoll.pwait, Sys.return_apply, commonCall_apply]
  rfl

section Execution

variable {η : Type} [DecidableEq η] (home via : η) (choice : Choice)

/-- A call is the kernel's answer and what the caller sees of it. -/
theorem exec_run (c : Call) (e : Errno) (s : Kernel η × List Report) :
    Sys.exec (answer home via choice) e s c.run =
      (answer home via choice s c.syscall).map fun x => ((c.sees x.1, c.leaves x.1), x.2) := by
  have hnull := answer_close_null home via choice
  cases c with
  | unsafeCreate size => exact exec_handOver hnull s Seen.created (Epoll.unsafeCreate_apply ..)
  | unsafeCreate1 flags => exact exec_handOver hnull s Seen.created (Epoll.unsafeCreate1_apply ..)
  | create => exact exec_handOver hnull s Seen.created (Epoll.unsafeCreate_apply ..)
  | createCloexec => exact exec_handOver hnull s Seen.created (Epoll.unsafeCreate1_apply ..)
  | destroy this =>
    exact Sys.exec_one _ s (fun _ => Seen.destroyed this) (Wrapper.destroy_apply this e)
  | unsafeCtl this op fd event =>
    exact Sys.exec_one _ s (Seen.changed this op fd event) (commonCall_apply _ e)
  | ctlAdd this add =>
    exact Sys.exec_one _ s (Seen.changed this .add add.fd (some add.event)) (commonCall_apply _ e)
  | ctlRemove this remove =>
    exact Sys.exec_one _ s (Seen.changed this .remove remove.fd none) (commonCall_apply _ e)
  | ctlModify this mod =>
    exact Sys.exec_one _ s (Seen.changed this .modify mod.fd (some mod.event))
      (commonCall_apply _ e)
  | wait this events timeout =>
    exact Sys.exec_one _ s (Seen.waited this events) (wait_apply this events timeout e)
  | pwait this events timeout sigmask =>
    exact Sys.exec_one _ s (Seen.waited this events) (pwait_apply this events timeout sigmask e)

end Execution

end Call

/-! ## The machine -/

/-- What may hold a descriptor. -/
inductive Holder (ρ π : Type) where
  | process (p : ρ)
  /-- The call that a thread has begun. -/
  | call (who : π)
  /-- Anything else, such as a mapping or a message on its way. -/
  | other (n : Nat)
  deriving DecidableEq

section Entries

variable {η : Type} [DecidableEq η]

/-- A descriptor with what it refers to. -/
def Kernel.ref (k : Kernel η) (d : Desc η) : Ref η := ⟨d, (k.refs.find d).getD 0⟩

/-- What closing a descriptor did, if it did anything. -/
def closing (k k' : Kernel η) (d : Desc η) : Entry η :=
  if (k.refs.find d).isSome ∧ k'.refs.find d = none then .closed d (k.refs.last d)
  else .unclosed d

/-- What a call did, and what it wrote. It found the kernel `k` and left `k'`. -/
def entry (home via : η) (k k' : Kernel η) (reports : List Report) : Seen → Entry η
  | .created (.error ec) => .failed ec
  | .created (.value this) => .opened (k'.ref (home, this.epollFd.raw)) true
  | .destroyed this => closing k k' (home, this.epollFd.raw)
  | .changed this op fd event ec =>
    if ec.isError then .failed ec
    else match op, event with
      | .add, some event => .added (k.ref (via, this.epollFd.raw)) (k.ref (via, fd)) event
      | .modify, some event => .modified (k.ref (via, this.epollFd.raw)) (k.ref (via, fd)) event
      | .remove, _ => .removed (k.ref (via, this.epollFd.raw)) (k.ref (via, fd))
      | .add, none | .modify, none => .failed ec
  | .waited this events (.error ec) =>
    if ec.isError then .failed ec
    else .reported (k.ref (via, this.epollFd.raw)) events.length.toNat reports
  | .waited this events (.value _) =>
    .reported (k.ref (via, this.epollFd.raw)) events.length.toNat reports

end Entries

variable {ρ π : Type} [DecidableEq ρ] [DecidableEq π]

structure State (ρ π : Type) where
  kernel : Kernel (Holder ρ π)
  errno : π → Errno
  log : List (Entry (Holder ρ π))

/-- Nothing is open. What a process starts with is opened by the first steps. -/
def State.init (errno : π → Errno) : State ρ π := ⟨⟨∅, fun _ => false, fun _ _ => none⟩, errno, []⟩

inductive Action (ρ π : Type) where
  /-- A call of a thread; one that began `early` uses what it holds since then. -/
  | call (who : π) (early : Bool) (c : Call) (choice : Choice)
  /-- Other code opens a file of any kind, duplicates a descriptor or closes one. -/
  | open_ (d : Desc (Holder ρ π)) (file : Nat) (epoll : Bool)
  | share (d d' : Desc (Holder ρ π))
  | close (d : Desc (Holder ρ π))

/-- `proc` gives the process of each thread. -/
def step (proc : π → ρ) (s : State ρ π) : Action ρ π → Option (State ρ π)
  | .call who early c choice => do
    let home : Holder ρ π := .process (proc who)
    let via : Holder ρ π := if early then .call who else home
    let x ← Sys.exec (answer home via choice) (s.errno who) (s.kernel, []) c.run
    let ((seen, err), (kernel, reports)) := x
    return {
      kernel := kernel
      errno := Function.update s.errno who err
      log := s.log ++ [entry home via s.kernel kernel reports seen] }
  | .open_ d file epoll => do
    let kernel ← s.kernel.attach d file epoll
    return { s with kernel := kernel, log := s.log ++ [.opened ⟨d, file⟩ epoll] }
  | .share d d' => do
    let kernel ← s.kernel.share d d'
    return { s with kernel := kernel, log := s.log ++ [.shared (s.kernel.ref d) d'] }
  | .close d =>
    if (s.kernel.refs.find d).isSome then
      some { s with
        kernel := s.kernel.release d
        log := s.log ++ [.closed d (s.kernel.refs.last d)] }
    else none

end Interest
