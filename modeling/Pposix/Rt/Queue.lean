-- SUMMARY: A message queue of the kernel, and what the calls of `mq` that send and receive do to it.
import Pposix.Rt.Mqueue
import Pposix.Views.Slices

/-!
# One message queue

The kernel keeps the messages in the order in which they are delivered. It may fail any
call for a reason of its own, and then changes nothing. Each of the six functions makes
one call, and reports to its caller what the kernel did.
-/

namespace Transfer

/-! ## The kernel -/

structure Msg where
  bytes : List UInt8
  prio : UInt32
  deriving DecidableEq, Repr

/-- A message goes behind those of its own priority and those of a higher one. -/
def enqueue (m : Msg) (q : List Msg) : List Msg :=
  q.takeWhile (m.prio ≤ ·.prio) ++ m :: q.dropWhile (m.prio ≤ ·.prio)

/-- The limits of the queue, and the descriptors of each party that refer to it. -/
structure Kernel (π : Type) where
  maxmsg : Nat
  msgsize : Nat
  prioMax : Nat
  refers : π → Int → Bool

/-- The kernel fails a call with an error, or carries it out and leaves `noise` in `errno`. -/
inductive Choice where
  | fail (err : Errno)
  | done (noise : Errno)
  deriving DecidableEq

/-- `ETIMEDOUT`. -/
def etimedout : Errno := 110

/-- The call may time out; `none` when it does not send or receive. -/
def timed : Syscall → Option Bool
  | .mqSend .. | .mqReceive .. => some false
  | .mqTimedsend .. | .mqTimedreceive .. => some true
  | _ => none

variable {π : Type}

/-- The queue puts a message, if it has room and the message is within the limits. -/
def Kernel.put (K : Kernel π) (who : π) (noise : Errno) (q : List Msg) (mem : Ptr → UInt8)
    (mqd : Int) (msg : Ptr) (len : SizeT) (prio : UInt32) :
    Option (Response × List Msg × (Ptr → UInt8)) :=
  if K.refers who mqd ∧ len.toNat ≤ K.msgsize ∧ prio.toNat < K.prioMax ∧ q.length < K.maxmsg then
    some (⟨0, noise, .nothing⟩, enqueue ⟨Cells.read mem 1 msg len.toNat, prio⟩ q, mem)
  else none

/-- The first message is written to the buffer, if the buffer has room for every message. -/
def Kernel.get (K : Kernel π) (who : π) (noise : Errno) (q : List Msg) (mem : Ptr → UInt8)
    (mqd : Int) (msg : Ptr) (len : SizeT) : Option (Response × List Msg × (Ptr → UInt8)) :=
  match q with
  | [] => none
  | m :: q =>
    if K.refers who mqd ∧ K.msgsize ≤ len.toNat then
      some (⟨m.bytes.length, noise, .priority m.prio⟩, q, Cells.write mem msg m.bytes)
    else none

/-- The answer to a call of the party `who`, whose memory is `mem`. -/
def Kernel.answer (K : Kernel π) (who : π) (choice : Choice) :
    Prog.Env (List Msg × (Ptr → UInt8)) Syscall Response := fun (q, mem) c =>
  match choice, c with
  | .fail err, c =>
    if ∃ t ∈ timed c, err ≠ 0 ∧ (err = etimedout → t = true) then
      some (⟨-1, err, .nothing⟩, q, mem)
    else none
  | .done noise, .mqSend mqd msg len prio => K.put who noise q mem mqd msg len prio
  | .done noise, .mqTimedsend mqd msg len prio _ => K.put who noise q mem mqd msg len prio
  | .done noise, .mqReceive mqd msg len => K.get who noise q mem mqd msg len
  | .done noise, .mqTimedreceive mqd msg len _ => K.get who noise q mem mqd msg len
  | .done _, _ => none

theorem enqueue_perm (m : Msg) (q : List Msg) : (enqueue m q).Perm (m :: q) := by
  have happend := List.takeWhile_append_dropWhile (p := fun x : Msg => decide (m.prio ≤ x.prio))
    (l := q)
  exact List.perm_middle.trans (List.Perm.of_eq (by rw [happend]))

/-! ## The calls -/

/-- A call on an `mq`, with the pointer and the length that the caller makes its view of. -/
inductive MqCall where
  | unsafeSend (data : Ptr) (length : SizeT) (priority : MqMessagePriority)
  | send (data : Ptr) (length : SizeT) (priority : MqMessagePriority)
      (assertion : priority.value < MqMessagePriority.max.value)
  | unsafeTimedSend (data : Ptr) (length : SizeT) (priority : MqMessagePriority) (time : Timespec)
  | timedSend (data : Ptr) (length : SizeT) (priority : MqMessagePriority)
      (assertion : priority.value < MqMessagePriority.max.value) (time : Timespec)
  | receive (data : Ptr) (length : SizeT)
  | timedReceive (data : Ptr) (length : SizeT) (time : Timespec)

/-- What a call returns to its caller. -/
inductive Returned where
  | code (ec : ErrorCode)
  | message (r : Result MqMessage)
  deriving DecidableEq

namespace MqCall

def run (this : Mq) : MqCall → Sys Returned
  | .unsafeSend data length priority => do
    return .code (← this.unsafeSend (ByteCspan.make data length) priority)
  | .send data length priority assertion => do
    return .code (← this.send (ByteCspan.make data length) priority assertion)
  | .unsafeTimedSend data length priority time => do
    return .code (← this.unsafeTimedSend (ByteCspan.make data length) priority time)
  | .timedSend data length priority assertion time => do
    return .code (← this.timedSend (ByteCspan.make data length) priority assertion time)
  | .receive data length => do
    return .message (← this.receive (ByteSpan.make data length))
  | .timedReceive data length time => do
    return .message (← this.timedReceive (ByteSpan.make data length) time)

/-- The view that the call gets. -/
def view : MqCall → View
  | .unsafeSend data length _ | .send data length _ _ | .unsafeTimedSend data length _ _
  | .timedSend data length _ _ _ => ByteCspan.make data length
  | .receive data length | .timedReceive data length _ => ByteSpan.make data length

/-- The priority of a message that is sent; `none` for a call that receives. -/
def priority : MqCall → Option UInt32
  | .unsafeSend _ _ priority | .send _ _ priority _ | .unsafeTimedSend _ _ priority _
  | .timedSend _ _ priority _ _ => some priority.value
  | .receive .. | .timedReceive .. => none

/-- The same call without a time. -/
def untimed : MqCall → MqCall
  | .unsafeTimedSend data length priority _ => .unsafeSend data length priority
  | .timedSend data length priority assertion _ => .send data length priority assertion
  | .timedReceive data length _ => .receive data length
  | c => c

/-- The system call under it. -/
def syscall (this : Mq) : MqCall → Syscall
  | .unsafeSend data length priority | .send data length priority _ =>
    .mqSend this.mqD.raw (ByteCspan.make data length).data (ByteCspan.make data length).length
      priority.value
  | .unsafeTimedSend data length priority time | .timedSend data length priority _ time =>
    .mqTimedsend this.mqD.raw (ByteCspan.make data length).data
      (ByteCspan.make data length).length priority.value time
  | .receive data length =>
    .mqReceive this.mqD.raw (ByteSpan.make data length).data (ByteSpan.make data length).length
  | .timedReceive data length time =>
    .mqTimedreceive this.mqD.raw (ByteSpan.make data length).data
      (ByteSpan.make data length).length time

/-- What the call makes of the answer. -/
def returned (c : MqCall) (r : Response) : Returned :=
  match c.priority with
  | some _ => .code r.errorCode
  | none => .message (Mq.receivedOf c.view r)

theorem run_apply (c : MqCall) (this : Mq) (e : Errno) :
    c.run this e = .call (c.syscall this) fun r => .done (c.returned r, r.errno) := by
  cases c with
  | receive data length =>
    simp only [run, Sys.return_apply, Mq.receive, Mq.received_apply]
    rfl
  | timedReceive data length time =>
    simp only [run, Sys.return_apply, Mq.timedReceive, Mq.received_apply]
    rfl
  | _ =>
    simp only [run, Sys.return_apply, Mq.send, Mq.timedSend, Mq.unsafeSend, Mq.unsafeTimedSend,
      commonCall_apply]
    rfl

end MqCall

/-! ## What the caller sees -/

/-- What a call did, as its caller sees it. -/
inductive Entry where
  /-- It returned the success code, for a message with these bytes and this priority. -/
  | sent (msg : Msg)
  /-- It was given a buffer and returned a message, which shows these bytes. -/
  | received (buffer : ByteSpan) (message : MqMessage) (bytes : List UInt8)
  | failed (ec : ErrorCode)

/-- The entry for a call that found the memory `mem` and left the memory `mem'`. -/
def entry (c : MqCall) (mem mem' : Ptr → UInt8) : Returned → Entry
  | .code ec =>
    if ec.isError then .failed ec
    else .sent ⟨c.view.elems mem 1, c.priority.getD 0⟩
  | .message (.error ec) => .failed ec
  | .message (.value m) => .received c.view m (m.messageBytes.elems mem' 1)

/-! ## What the kernel does -/

/-- What a call does to the queue, and the entry that it leaves. -/
inductive Effect (K : Kernel π) (q : List Msg) (c : MqCall) : List Msg → Entry → Prop where
  | failed (ec : ErrorCode) : Effect K q c q (.failed ec)
  | sent (m : Msg) : m.bytes.length ≤ K.msgsize → Effect K q c (enqueue m q) (.sent m)
  | received (m : Msg) (q' : List Msg) (message : MqMessage) : q = m :: q' →
      message.priority.value = m.prio → View.Within 1 message.messageBytes c.view →
      Effect K q c q' (.received c.view message m.bytes)

variable {K : Kernel π} {who : π} {this : Mq} {c : MqCall} {choice : Choice}

theorem view_normal (c : MqCall) : c.view.Normal := by
  cases c <;> exact View.normal_ofBuffer _ _

/-- A span over a part of a buffer has the length that it is given. -/
theorem toNat_length_make {v : View} (hv : v.Normal) {n : Nat} (hn : n ≤ v.length.toNat) :
    (ByteSpan.make v.data (UInt64.ofInt n)).length.toNat = n := by
  have hlt : n < UInt64.size := Nat.lt_of_le_of_lt hn v.length.toNat_lt
  by_cases hdata : v.data = 0
  · have hlen : v.length.toNat = 0 := by
      rw [hv hdata]
      rfl
    rw [hdata, ByteSpan.make, View.length_ofBuffer_null]
    exact (Nat.le_zero.mp (hlen ▸ hn)).symm
  · rw [ByteSpan.make, View.length_ofBuffer hdata]
    exact toNat_ofInt_natCast hlt

/-- What the span of a received message shows, after the kernel wrote the message. -/
theorem elems_make {v : View} (hv : v.Normal) (mem : Ptr → UInt8) {bytes : List UInt8}
    (hlen : bytes.length ≤ v.length.toNat) :
    (ByteSpan.make v.data (UInt64.ofInt bytes.length)).elems (Cells.write mem v.data bytes) 1 =
      bytes := by
  simp only [View.elems, toNat_length_make hv hlen]
  rw [ByteSpan.make, View.data_ofBuffer, Cells.read_write _ _ _ (Nat.le_refl _), List.take_length]

/-- A call that is carried out puts a message or gets one. -/
theorem answer_done (c : MqCall) (noise : Errno) (q : List Msg) (mem : Ptr → UInt8) :
    K.answer who (.done noise) (q, mem) (c.syscall this) =
      match c.priority with
      | some prio => K.put who noise q mem this.mqD.raw c.view.data c.view.length prio
      | none => K.get who noise q mem this.mqD.raw c.view.data c.view.length := by
  cases c <;> rfl

/-- A call that fails sets `errno` and changes nothing. -/
theorem answer_fail {err : Errno} {q q' : List Msg} {mem mem' : Ptr → UInt8} {r : Response}
    (h : K.answer who (.fail err) (q, mem) (c.syscall this) = some (r, q', mem')) :
    err ≠ 0 ∧ r = ⟨-1, err, .nothing⟩ ∧ q' = q ∧ mem' = mem := by
  simp only [Kernel.answer] at h
  split at h
  · rename_i hfail
    obtain ⟨_, _, herr, -⟩ := hfail
    cases h
    exact ⟨herr, rfl, rfl, rfl⟩
  · cases h

theorem entry_fail {err : Errno} (herr : err ≠ 0) (mem mem' : Ptr → UInt8) :
    entry c mem mem' (c.returned ⟨-1, err, .nothing⟩) = .failed ⟨err⟩ := by
  unfold MqCall.returned
  cases c.priority with
  | none => rfl
  | some prio =>
    have hcode : (Response.mk (-1) err .nothing).errorCode = ⟨err⟩ := rfl
    simp [entry, hcode, ErrorCode.isError, herr]

theorem put_effect {noise : Errno} {q q' : List Msg} {mem mem' : Ptr → UInt8} {r : Response}
    {prio : UInt32} (hprio : c.priority = some prio)
    (h : K.put who noise q mem this.mqD.raw c.view.data c.view.length prio =
      some (r, q', mem')) :
    Effect K q c q' (entry c mem mem' (c.returned r)) := by
  unfold Kernel.put at h
  split at h
  · rename_i hput
    cases h
    have hentry : entry c mem mem (c.returned ⟨0, noise, .nothing⟩) =
        .sent ⟨c.view.elems mem 1, prio⟩ := by
      simp [MqCall.returned, hprio, entry, Response.errorCode, ErrorCode.isError]
    rw [hentry]
    exact .sent ⟨c.view.elems mem 1, prio⟩ (by simpa using hput.2.1)
  · cases h

theorem get_effect {noise : Errno} {q q' : List Msg} {mem mem' : Ptr → UInt8} {r : Response}
    (hfits : ∀ m ∈ q, m.bytes.length ≤ K.msgsize) (hprio : c.priority = none)
    (h : K.get who noise q mem this.mqD.raw c.view.data c.view.length = some (r, q', mem')) :
    Effect K q c q' (entry c mem mem' (c.returned r)) := by
  unfold Kernel.get at h
  split at h
  · cases h
  · rename_i m rest
    split at h
    · rename_i hget
      cases h
      -- The message fits the queue's limit, and the limit fits the buffer.
      have hlen : m.bytes.length ≤ c.view.length.toNat :=
        Nat.le_trans (hfits m List.mem_cons_self) hget.2
      have hret : ¬ (m.bytes.length : Int) = -1 := by omega
      have hreturned : c.returned ⟨m.bytes.length, noise, .priority m.prio⟩ =
          .message (.value ⟨⟨m.prio⟩, ByteSpan.make c.view.data (UInt64.ofInt m.bytes.length)⟩) := by
        simp only [MqCall.returned, hprio, Mq.receivedOf, if_neg hret]
        rfl
      rw [hreturned]
      simp only [entry, elems_make (view_normal c) mem hlen]
      refine .received m _ _ rfl rfl ?_
      have hdata : (ByteSpan.make c.view.data (UInt64.ofInt m.bytes.length)).data = c.view.data :=
        View.data_ofBuffer ..
      rw [View.within_iff_of_data_eq hdata, toNat_length_make (view_normal c) hlen]
      exact hlen
    · cases h

/-- What the wrapper reports of an answer is what the kernel did. -/
theorem answer_effect {q q' : List Msg} {mem mem' : Ptr → UInt8} {r : Response}
    (hfits : ∀ m ∈ q, m.bytes.length ≤ K.msgsize)
    (h : K.answer who choice (q, mem) (c.syscall this) = some (r, q', mem')) :
    Effect K q c q' (entry c mem mem' (c.returned r)) := by
  cases choice with
  | fail err =>
    obtain ⟨herr, rfl, rfl, rfl⟩ := answer_fail h
    rw [entry_fail herr]
    exact .failed ⟨err⟩
  | done noise =>
    rw [answer_done] at h
    cases hprio : c.priority with
    | none =>
      rw [hprio] at h
      exact get_effect hfits hprio h
    | some prio =>
      rw [hprio] at h
      exact put_effect hprio h

/-- The wrapper reports a failure only where the call returned `-1`. -/
theorem ret_of_entry_failed {mem mem' : Ptr → UInt8} {r : Response} {ec : ErrorCode}
    (h : entry c mem mem' (c.returned r) = .failed ec) : r.ret = -1 := by
  by_contra hret
  unfold MqCall.returned at h
  split at h
  · simp [entry, Response.errorCode, hret, ErrorCode.isError] at h
  · simp [entry, Mq.receivedOf, hret] at h

/-- A call that is carried out does not return `-1`. -/
theorem ret_of_done {noise : Errno} {q q' : List Msg} {mem mem' : Ptr → UInt8} {r : Response}
    (h : K.answer who (.done noise) (q, mem) (c.syscall this) = some (r, q', mem')) :
    r.ret ≠ -1 := by
  rw [answer_done] at h
  split at h
  · unfold Kernel.put at h
    split at h
    · cases h
      exact (by decide : (0 : Int) ≠ -1)
    · cases h
  · unfold Kernel.get at h
    split at h
    · cases h
    · split at h
      · cases h
        simp only
        omega
      · cases h

/-- A call that returns `-1` changes nothing. -/
theorem answer_of_ret {q q' : List Msg} {mem mem' : Ptr → UInt8} {r : Response}
    (h : K.answer who choice (q, mem) (c.syscall this) = some (r, q', mem')) (hret : r.ret = -1) :
    q' = q ∧ mem' = mem := by
  cases choice with
  | fail err => exact (answer_fail h).2.2
  | done noise => exact absurd hret (ret_of_done h)

/-! ## The timed variants -/

@[simp] theorem view_untimed (c : MqCall) : c.untimed.view = c.view := by
  cases c <;> rfl

@[simp] theorem priority_untimed (c : MqCall) : c.untimed.priority = c.priority := by
  cases c <;> rfl

/-- The kernel makes no difference between the variants, except for a timeout. -/
theorem answer_untimed (htimeout : choice ≠ .fail etimedout) (q : List Msg) (mem : Ptr → UInt8) :
    K.answer who choice (q, mem) (c.untimed.syscall this) =
      K.answer who choice (q, mem) (c.syscall this) := by
  cases choice with
  | done noise => rw [answer_done, answer_done, view_untimed, priority_untimed]
  | fail err =>
    have herr : err ≠ etimedout := fun heq => htimeout (heq ▸ rfl)
    cases c <;> simp [Kernel.answer, MqCall.syscall, MqCall.untimed, timed, herr]

/-- Neither does the caller see one. -/
theorem entry_untimed (mem mem' : Ptr → UInt8) (r : Response) :
    entry c.untimed mem mem' (c.untimed.returned r) = entry c mem mem' (c.returned r) := by
  unfold MqCall.returned
  rw [priority_untimed, view_untimed]
  split <;> simp only [entry, priority_untimed, view_untimed]

end Transfer
