-- SUMMARY: The kernel with message queues under names, and what the calls of `mq` make of its answers.
import Pposix.Rt.Open
import Pposix.Rt.Queue

/-!
# Queues by name

A name stands for a queue until it is unlinked, and may be given to another queue after
that, while the descriptors of the first one go on. A descriptor keeps the access mode of
its opening. No function of `mq` makes a queue.
-/

def MqMode.reads : MqMode → Bool
  | .readOnly | .readWrite => true
  | .writeOnly => false

def MqMode.writes : MqMode → Bool
  | .writeOnly | .readWrite => true
  | .readOnly => false

namespace Exchange

open Transfer (Msg MqCall)

/-! ## The kernel -/

structure Queue where
  maxmsg : Nat
  msgsize : Nat
  messages : List Msg

/-- A descriptor refers to a queue, and has the flags of its opening. -/
structure Hall (π : Type) where
  names : String → Option Nat
  queues : Nat → Option Queue
  descs : π → Nat → Option (Nat × Word)

/-- The kernel fails a call, or carries it out, leaves `noise` in `errno`, and gives out `fd`
where it gives out a descriptor. -/
inductive Choice where
  | fail (err : Errno)
  | done (noise : Errno) (fd : Nat)

def Choice.errno : Choice → Errno
  | .fail err => err
  | .done noise _ => noise

/-- `EBADF`. -/
def ebadf : Errno := 9

/-- `O_ACCMODE`. -/
def accmode : Word := 3

/-- How the kernel reads the access mode. -/
def modeOf (flags : Word) : MqMode :=
  if flags &&& accmode = MqMode.readOnly.underlying then .readOnly
  else if flags &&& accmode = MqMode.writeOnly.underlying then .writeOnly
  else .readWrite

/-- The descriptor of a call that sends or receives, and the modes that allow it. -/
def target : Syscall → Option (Int × (MqMode → Bool))
  | .mqSend mqd .. | .mqTimedsend mqd .. => some (mqd, MqMode.writes)
  | .mqReceive mqd .. | .mqTimedreceive mqd .. => some (mqd, MqMode.reads)
  | _ => none

/-- One queue as `Transfer` has it: who refers to it was looked up. -/
def Queue.kernel (π : Type) (q : Queue) (prioMax : Nat) : Transfer.Kernel π where
  maxmsg := q.maxmsg
  msgsize := q.msgsize
  prioMax := prioMax
  refers _ _ := true

section Kernel

variable {π : Type}

/-- No descriptor is negative. -/
def Hall.desc (h : Hall π) (who : π) : Int → Option (Nat × Word)
  | .ofNat fd => h.descs who fd
  | .negSucc _ => none

def Hall.name (h : Hall π) (name : String) (i : Option Nat) : Hall π :=
  { h with names := Function.update h.names name i }

def Hall.hold (h : Hall π) (i : Nat) (q : Queue) : Hall π :=
  { h with queues := Function.update h.queues i (some q) }

/-- A call that sends or receives on the queue of its descriptor. -/
def Hall.deliver (h : Hall π) (prioMax : Nat) (who : π) (noise : Errno) (mem : Ptr → UInt8)
    (c : Syscall) : Option (Response × Hall π × (Ptr → UInt8)) := do
  let (fd, allows) ← target c
  let (i, flags) ← h.desc who fd
  let q ← h.queues i
  if allows (modeOf flags) then
    let (r, messages, mem) ← (q.kernel π prioMax).answer who (.done noise) (q.messages, mem) c
    return (r, h.hold i { q with messages := messages }, mem)
  else none

variable [DecidableEq π]

def Hall.link (h : Hall π) (who : π) (fd : Nat) (d : Option (Nat × Word)) : Hall π :=
  { h with descs := fun p f => if p = who ∧ f = fd then d else h.descs p f }

/-- The answer to a call of the party `who`. An open descriptor can always be closed. An
opening that asks to create a queue has no answer: no function of `mq` passes what the
kernel reads then. Nor has one with `O_EXCL`: without `O_CREAT` its effect is undefined. -/
def answer (prioMax : Nat) (who : π) (choice : Choice) :
    Prog.Env (Hall π × (Ptr → UInt8)) Syscall Response := fun (h, mem) c =>
  match choice, c with
  | _, .mqClose (.negSucc _) => some (⟨-1, ebadf, .nothing⟩, h, mem)
  | choice, .mqClose (.ofNat fd) =>
    if (h.descs who fd).isSome then
      some (⟨0, choice.errno, .nothing⟩, h.link who fd none, mem)
    else some (⟨-1, ebadf, .nothing⟩, h, mem)
  | .fail err, .mqOpen .. | .fail err, .mqUnlink _ =>
    if err ≠ 0 then some (⟨-1, err, .nothing⟩, h, mem) else none
  | .fail err, c =>
    if ∃ t ∈ Transfer.timed c, err ≠ 0 ∧ (err = Transfer.etimedout → t = true) then
      some (⟨-1, err, .nothing⟩, h, mem)
    else none
  | .done noise fd, .mqOpen name flags _ =>
    if ¬ Mq.HasCreate flags ∧ ¬ Mq.HasExcl flags ∧ flags &&& accmode ≠ accmode ∧
        h.descs who fd = none then
      (h.names name).map fun i => (⟨fd, noise, .nothing⟩, h.link who fd (some (i, flags)), mem)
    else none
  | .done noise _, .mqUnlink name =>
    if (h.names name).isSome then
      some (⟨0, noise, .nothing⟩, h.name name none, mem)
    else none
  | .done noise _, c => h.deliver prioMax who noise mem c

end Kernel

/-! ## The calls -/

/-- A function that opens a queue. The options are those that the caller joins. -/
inductive Opening where
  | unsafeOpen (options : List MqOption)
  | open_
  | openOption (options : List MqOption)
      (assertion : EnumFlag.join MqOption.underlying options ≠ ⟨MqOption.excl.underlying⟩)
  | openCreate (attributes : MqCreateQueue)
  | openOptionCreate (options : List MqOption) (createQueue : MqCreateQueue)

namespace Opening

def run (name : String) (mode : MqMode) : Opening → Sys (Result Mq)
  | .unsafeOpen options =>
    Mq.unsafeOpen name mode.underlying (EnumFlag.join MqOption.underlying options).flags
  | .open_ => Mq.open_ name mode
  | .openOption options assertion =>
    Mq.openOption name mode (.join MqOption.underlying options) assertion
  | .openCreate attributes => Mq.openCreate name mode attributes
  | .openOptionCreate options createQueue =>
    Mq.openOptionCreate name mode (.join MqOption.underlying options) createQueue

/-- The flags that reach the kernel. -/
def word (mode : MqMode) : Opening → Word
  | .open_ | .openCreate _ => mode.underlying
  | .unsafeOpen options | .openOption options _ | .openOptionCreate options _ =>
    mode.underlying ||| (EnumFlag.join MqOption.underlying options).flags

/-- What is passed after the flags. -/
def args : Opening → List MqOpenArg
  | .unsafeOpen _ | .open_ | .openOption .. => []
  | .openCreate attributes => [attributes.mqAttrPtr]
  | .openOptionCreate _ createQueue => [createQueue.mqAttrPtr]

theorem run_apply (o : Opening) (name : String) (mode : MqMode) (e : Errno) :
    o.run name mode e = handOver Mq (.mqOpen name (o.word mode) o.args) (-1) id 1 := by
  cases o with
  | unsafeOpen options => exact Mq.unsafeOpen_apply ..
  | _ => exact Mq.opened_apply ..

/-- No option has a bit of the access mode. -/
theorem mode_or (mode : MqMode) (options : List MqOption) :
    (mode.underlying ||| (EnumFlag.join MqOption.underlying options).flags) &&& accmode =
      mode.underlying &&& accmode := by
  apply EnumFlag.or_and_of_has_eq_false
  apply EnumFlag.join_has_eq_false
  intro c
  cases c <;> rfl

/-- The kernel reads the mode that the caller names. -/
theorem modeOf_word (o : Opening) (mode : MqMode) : modeOf (o.word mode) = mode := by
  have hword : o.word mode &&& accmode = mode.underlying &&& accmode := by
    cases o with
    | open_ => rfl
    | openCreate attributes => rfl
    | _ => exact mode_or mode _
  unfold modeOf
  rw [hword]
  cases mode <;> rfl

end Opening

/-- A call of a party. -/
inductive Call where
  | open_ (name : String) (mode : MqMode) (o : Opening)
  | unlink (name : String)
  | destroy (this : Mq)
  | message (this : Mq) (c : MqCall)

/-- What the caller sees of its call. -/
inductive Seen where
  | opened (name : String) (mode : MqMode) (q : Mq)
  | unlinked (name : String)
  | destroyed (fd : Int)
  | message (fd : Int) (c : MqCall) (r : Transfer.Returned)
  | failed (ec : ErrorCode)

/-- An opening as its caller sees it. -/
def opened (name : String) (mode : MqMode) : Result Mq → Seen
  | .error ec => .failed ec
  | .value q => .opened name mode q

/-- An unlinking as its caller sees it. -/
def unlinked (name : String) (ec : ErrorCode) : Seen :=
  if ec.isError then .failed ec else .unlinked name

namespace Call

def run : Call → Sys Seen
  | .open_ name mode o => do return Exchange.opened name mode (← o.run name mode)
  | .unlink name => do return Exchange.unlinked name (← Mq.unlink name)
  | .destroy this => do
    let _ ← Wrapper.destroy this
    return .destroyed this.mqD.raw
  | .message this c => do return .message this.mqD.raw c (← c.run this)

/-- The first system call, and the only one but for the destructor of an empty object. -/
def syscall : Call → Syscall
  | .open_ name mode o => .mqOpen name (o.word mode) o.args
  | .unlink name => .mqUnlink name
  | .destroy this => .mqClose this.mqD.raw
  | .message this c => c.syscall this

/-- What the caller sees of the answer. -/
def sees (c : Call) (r : Response) : Seen :=
  match c with
  | .open_ name mode _ => Exchange.opened name mode (r.result Wrapper.ofRaw)
  | .unlink name => Exchange.unlinked name r.errorCode
  | .destroy this => .destroyed this.mqD.raw
  | .message this c => .message this.mqD.raw c (c.returned r)

/-- What the call leaves in `errno`: an opening that succeeds closes an empty object. -/
def leaves (c : Call) (r : Response) : Errno :=
  match c with
  | .open_ .. => if r.ret ≠ -1 then ebadf else r.errno
  | _ => r.errno

variable {π : Type} [DecidableEq π] (prioMax : Nat) (who : π) (choice : Choice)

theorem answer_close_null (s : Hall π × (Ptr → UInt8)) :
    answer prioMax who choice s (mqPolicy.call mqPolicy.null) =
      some (⟨-1, ebadf, .nothing⟩, s) := by
  cases choice <;> rfl

/-- A call is the kernel's answer and what the caller sees of it. -/
theorem exec_run (c : Call) (e : Errno) (h : Hall π) (mem : Ptr → UInt8) :
    Sys.exec (answer prioMax who choice) e (h, mem) c.run =
      (answer prioMax who choice (h, mem) c.syscall).map fun x =>
        ((c.sees x.1, c.leaves x.1), x.2) := by
  cases c with
  | open_ name mode o =>
    exact exec_handOver (answer_close_null prioMax who choice) _ (Exchange.opened name mode)
      (o.run_apply ..)
  | unlink name => exact Sys.exec_one _ _ (Exchange.unlinked name) (commonCall_apply _ e)
  | destroy this =>
    exact Sys.exec_one _ _ (fun _ => Seen.destroyed this.mqD.raw) (Wrapper.destroy_apply this e)
  | message this c =>
    exact Sys.exec_one _ _ (Seen.message this.mqD.raw c) (c.run_apply this e)

end Call

end Exchange
