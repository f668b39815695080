-- SUMMARY: `rt/mqueue.cpp`: message queues.
import Pposix.Core.EnumFlag
import Pposix.Core.Signal
import Pposix.Core.Span
import Pposix.Core.Wrapper

/-! # Message queues -/

def closeMqD (mqDescriptor : Int) : Sys ErrorCode := commonCall (.mqClose mqDescriptor)

/-- The queue descriptor that a call closes. -/
def Syscall.closedMq : Syscall → Option Int
  | .mqClose mqd => some mqd
  | _ => none

/-- `NULL_MQD_T`. -/
def nullMqdT : Int := -1

/-- `detail::mq_null_descriptor` and `close_mq_d`. -/
def mqPolicy : Policy Int where
  null := nullMqdT
  close := closeMqD
  call := .mqClose
  handle := Syscall.closedMq
  close_eq _ := rfl
  handle_call _ := rfl

abbrev UniqueMqD := Descriptor mqPolicy

/-- `capi::mq_mode`. -/
inductive MqMode where
  | readOnly | writeOnly | readWrite
  deriving DecidableEq, Repr

def MqMode.underlying : MqMode → Word
  | .readOnly => 0
  | .writeOnly => 1
  | .readWrite => 2

/-- `capi::mq_option`, with the values of Linux. -/
inductive MqOption where
  | create | excl | nonBlocking
  deriving DecidableEq, Repr

def MqOption.underlying : MqOption → Word
  | .create => 64
  | .excl => 128
  | .nonBlocking => 2048

structure Mq where
  mqD : UniqueMqD

instance : Wrapper Mq mqPolicy where
  member := Mq.mqD
  ofMember := Mq.mk
  member_ofMember _ := rfl

def Mq.unsafeOpen (name : String) (mode option : Word) : Sys (Result Mq) := do
  let mqDescriptor ← syscall (.mqOpen name (mode ||| option) [])
  if mqDescriptor.ret = nullMqdT then return .ofErrorCode (← currentErrnoCode)
  else Result.ofTemporary (Wrapper.ofRaw mqDescriptor.ret : Mq)

/-! ## Opening -/

/-- `mq_create_queue`: the attributes of a queue that is to be created. -/
structure MqCreateQueue where
  attributes : MqAttr
  deriving DecidableEq, Repr

def MqCreateQueue.make (maxMessageCount maxMessageSize : Int) : MqCreateQueue :=
  ⟨{ maxmsg := maxMessageCount, msgsize := maxMessageSize }⟩

/-- The argument that `mq_attr_ptr()` passes. -/
def MqCreateQueue.mqAttrPtr (this : MqCreateQueue) : MqOpenArg :=
  .attr this.attributes.maxmsg this.attributes.msgsize

/-- `mq_current_attr`. -/
structure MqCurrentAttr where
  attributes : MqAttr
  deriving DecidableEq, Repr

namespace MqCurrentAttr

def currentMessageCount (this : MqCurrentAttr) : Int := this.attributes.curmsgs

def maxMessageCount (this : MqCurrentAttr) : Int := this.attributes.maxmsg

def maxMessageSize (this : MqCurrentAttr) : Int := this.attributes.msgsize

end MqCurrentAttr

namespace Mq

/-- What the overloads of `open` make of the descriptor that `::mq_open` returns. -/
def opened (c : Syscall) : Sys (Result Mq) := do
  let res ← syscall c
  if res.ret = nullMqdT then return .ofErrorCode (← currentErrnoCode)
  else Result.ofTemporary (Wrapper.ofRaw res.ret : Mq)

/-- `open(name, mode)`. -/
def open_ (name : String) (mode : MqMode) : Sys (Result Mq) :=
  opened (.mqOpen name mode.underlying [])

/-- `open(name, mode, option)`. A static assertion refuses the flag `mq_excl` alone. -/
def openOption (name : String) (mode : MqMode) (flag : EnumFlag 32)
    (_ : flag ≠ ⟨MqOption.excl.underlying⟩) : Sys (Result Mq) :=
  opened (.mqOpen name (mode.underlying ||| flag.flags) [])

/-- `open(name, mode, create_queue)`. -/
def openCreate (name : String) (mode : MqMode) (attributes : MqCreateQueue) : Sys (Result Mq) :=
  opened (.mqOpen name mode.underlying [attributes.mqAttrPtr])

/-- `open(name, mode, options, create_queue)`. -/
def openOptionCreate (name : String) (mode : MqMode) (flags : EnumFlag 32)
    (createQueue : MqCreateQueue) : Sys (Result Mq) :=
  opened (.mqOpen name (mode.underlying ||| flags.flags) [createQueue.mqAttrPtr])

def unlink (name : String) : Sys ErrorCode := commonCall (.mqUnlink name)

def getattr (this : Mq) : Sys (Result MqCurrentAttr) := do
  let result ← syscall (.mqGetattr this.mqD.raw)
  if result.ret = -1 then return .ofErrorCode (← currentErrnoCode)
  else return .ofValue ⟨result.mqAttr⟩

/-- A static assertion refuses the flag `mq_excl`. The result shows the attributes before
the call. -/
def setattr (this : Mq) (option : EnumFlag 32)
    (_ : option.hasFlag ⟨MqOption.excl.underlying⟩ = false) : Sys (Result MqCurrentAttr) := do
  let newAttributes : MqAttr := { flags := option.flags.toInt }
  let res ← syscall (.mqSetattr this.mqD.raw newAttributes)
  if res.ret = -1 then return .ofErrorCode (← currentErrnoCode)
  else return .ofValue ⟨res.mqAttr⟩

end Mq

/-! ## Notification -/

/-- `mq_notify_signal`. -/
structure MqNotifySignal where
  event : Sigevent
  deriving DecidableEq, Repr

/-- The constructor for an `int`. -/
def MqNotifySignal.ofInt (number : SigNumber) (handler : Ptr) (value : Int) : MqNotifySignal :=
  ⟨.ofInt .signal number handler value⟩

/-- The constructor for a pointer. -/
def MqNotifySignal.ofPtr (number : SigNumber) (handler value : Ptr) : MqNotifySignal :=
  ⟨.ofPtr .signal number handler value⟩

namespace Mq

/-- `notify(mq_deregister_notification)`. -/
def notifyDeregister (this : Mq) : Sys ErrorCode := commonCall (.mqNotify this.mqD.raw none)

def unsafeNotify (this : Mq) (sigevent : Sigevent) : Sys ErrorCode :=
  commonCall (.mqNotify this.mqD.raw (some sigevent))

/-- `notify(mq_notify_none)`. -/
def notifyNone (this : Mq) : Sys ErrorCode :=
  this.unsafeNotify (.ofPtr .none {} 0 0)

/-- `notify(notify_signal)`. -/
def notify (this : Mq) (notifySignal : MqNotifySignal) : Sys ErrorCode :=
  this.unsafeNotify notifySignal.event

end Mq

/-! ## Messages -/

/-- `mq_message_priority`. -/
structure MqMessagePriority where
  value : UInt32 := 0
  deriving DecidableEq, Repr

/-- `mq_message_priority::max`, which is `_POSIX_MQ_PRIO_MAX`. -/
def MqMessagePriority.max : MqMessagePriority := ⟨32⟩

structure MqMessage where
  priority : MqMessagePriority
  messageBytes : ByteSpan
  deriving DecidableEq, Repr

namespace Mq

def unsafeSend (this : Mq) (message : ByteCspan) (priority : MqMessagePriority) : Sys ErrorCode :=
  commonCall (.mqSend this.mqD.raw message.data message.length priority.value)

/-- The static assertion keeps the priority below the maximum. -/
def send (this : Mq) (message : ByteCspan) (priority : MqMessagePriority)
    (_ : priority.value < MqMessagePriority.max.value) : Sys ErrorCode :=
  this.unsafeSend message priority

def unsafeTimedSend (this : Mq) (message : ByteCspan) (priority : MqMessagePriority)
    (absoluteTime : Timespec) : Sys ErrorCode :=
  commonCall (.mqTimedsend this.mqD.raw message.data message.length priority.value absoluteTime)

def timedSend (this : Mq) (message : ByteCspan) (priority : MqMessagePriority)
    (_ : priority.value < MqMessagePriority.max.value) (absoluteTime : Timespec) :
    Sys ErrorCode :=
  this.unsafeTimedSend message priority absoluteTime

/-- What `receive` and `timed_receive` make of the number of bytes that their call returns. -/
def received (c : Syscall) (buffer : ByteSpan) : Sys (Result MqMessage) := do
  let res ← syscall c
  if res.ret = -1 then return .ofErrorCode (← currentErrnoCode)
  else return .ofValue ⟨⟨res.priority⟩, ByteSpan.make buffer.data (UInt64.ofInt res.ret)⟩

def receive (this : Mq) (messageBuffer : ByteSpan) : Sys (Result MqMessage) :=
  received (.mqReceive this.mqD.raw messageBuffer.data messageBuffer.length) messageBuffer

def timedReceive (this : Mq) (message : ByteSpan) (absoluteTime : Timespec) :
    Sys (Result MqMessage) :=
  received (.mqTimedreceive this.mqD.raw message.data message.length absoluteTime) message

/-- The result that `received` makes of an answer. -/
def receivedOf (buffer : ByteSpan) (r : Response) : Result MqMessage :=
  if r.ret = -1 then .error ⟨r.errno⟩
  else .value ⟨⟨r.priority⟩, ByteSpan.make buffer.data (UInt64.ofInt r.ret)⟩

theorem received_apply (c : Syscall) (buffer : ByteSpan) (e : Errno) :
    received c buffer e = .call c fun r => .done (receivedOf buffer r, r.errno) :=
  translated_apply _ c e

end Mq
