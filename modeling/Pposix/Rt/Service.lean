-- SUMMARY: The attributes of a message queue and the notification of one party, beside the messages: their log replays on a counter and a watcher.
import Pposix.Base.Replay
import Pposix.Rt.Transfer

/-!
# Service of a message queue

The kernel tells at most one party that a message came, once, and only when the queue was
empty and nobody was receiving. A party may close the descriptor that it registered
through. What the parties see of their calls replays on the number of messages and on the
party that is to be told.
-/

namespace Service

/-! ## What is promised -/

/-- How a party learns that a message came. -/
inductive Notice where
  | nothing
  | signal (number : Int) (value : Sigval)
  | thread (function : Ptr) (value : Sigval)
  deriving DecidableEq, Repr

/-- A party that is to be told, and the descriptor through which it asked for that. -/
structure Registration (π : Type) where
  who : π
  notice : Notice
  fd : Int

/-- The number of messages, and who is to be told of the next one. -/
structure Desk (π : Type) where
  waiting : Nat
  watcher : Option (Registration π)

/-- What the parties see. A message may tell a party that it came. Whether a close withdrew a
registration is for the statements: no code reads it. -/
inductive Entry (π : Type) where
  | message (e : Transfer.Entry) (told : Option (Registration π))
  | attributes (a : MqCurrentAttr)
  | watched (w : Registration π)
  | unwatched (who : π)
  /-- The destructor of an object closed its descriptor. -/
  | closed (who : π) (fd : Int) (withdrew : Bool)
  | failed (ec : ErrorCode)

section Promises

variable {π : Type} [DecidableEq π]

/-- Nobody is to be told, where it was `who`. -/
def Desk.withdraw (d : Desk π) (who : π) : Desk π :=
  { d with watcher := d.watcher.filter (·.who ≠ who) }

/-- What an entry does to the desk of a queue for `maxmsg` messages of `msgsize` bytes. -/
inductive Serves (maxmsg msgsize : Nat) : Desk π → Entry π → Desk π → Prop where
  | failed {d : Desk π} {ec : ErrorCode} : Serves maxmsg msgsize d (.failed ec) d
  | refused {d : Desk π} {ec : ErrorCode} :
      Serves maxmsg msgsize d (.message (.failed ec) none) d
  | sent {n : Nat} {w : Option (Registration π)} {m : Transfer.Msg} : n < maxmsg →
      Serves maxmsg msgsize ⟨n, w⟩ (.message (.sent m) none) ⟨n + 1, w⟩
  | told {w : Registration π} {m : Transfer.Msg} : 0 < maxmsg →
      Serves maxmsg msgsize ⟨0, some w⟩ (.message (.sent m) (some w)) ⟨1, none⟩
  | received {n : Nat} {w : Option (Registration π)} {buffer : ByteSpan} {m : MqMessage}
      {bytes : List UInt8} :
      Serves maxmsg msgsize ⟨n + 1, w⟩ (.message (.received buffer m bytes) none) ⟨n, w⟩
  | attributes {d : Desk π} {a : MqCurrentAttr} : a.currentMessageCount = d.waiting →
      a.maxMessageCount = maxmsg → a.maxMessageSize = msgsize →
      Serves maxmsg msgsize d (.attributes a) d
  | watched {n : Nat} {w : Registration π} :
      Serves maxmsg msgsize ⟨n, none⟩ (.watched w) ⟨n, some w⟩
  | unwatched {d : Desk π} {who : π} :
      Serves maxmsg msgsize d (.unwatched who) (d.withdraw who)
  | closed {n : Nat} {w : Registration π} {fd : Int} :
      Serves maxmsg msgsize ⟨n, some w⟩ (.closed w.who fd true) ⟨n, none⟩
  | left {d : Desk π} {who : π} {fd : Int} : (∀ w ∈ d.watcher, ¬ (w.who = who ∧ w.fd = fd)) →
      Serves maxmsg msgsize d (.closed who fd false) d

end Promises

/-! ## The kernel -/

/-- How the kernel reads an event. -/
def noticeOf (event : Sigevent) : Option Notice :=
  if event.notify = SigNotify.none.underlying then some .nothing
  else if event.notify = SigNotify.signal.underlying then some (.signal event.signo event.value)
  else if event.notify = SigNotify.thread.underlying then
    some (.thread event.notifyFunction event.value)
  else none

/-- The kernel fails a call, or carries it out, leaves `noise` in `errno`, and shows `flags`
where it shows attributes. A close withdraws the registration that was made through its
descriptor; with `all` also one that its party made through another descriptor. -/
inductive Choice where
  | fail (err : Errno)
  | done (noise : Errno) (flags : Int) (all : Bool)

/-- What the kernel holds beside the messages: the descriptors of each party that refer to
the queue, and the registration, which was made through one of them. -/
structure Register (π : Type) where
  refers : π → Int → Bool
  watcher : Option (Registration π)
  watched : ∀ w ∈ watcher, refers w.who w.fd = true

namespace Register

variable {π : Type}

/-- The queue, with the descriptors that refer to it now. -/
def kernel (g : Register π) (K : Transfer.Kernel π) : Transfer.Kernel π :=
  { K with refers := g.refers }

/-- The call closes a descriptor that refers to the queue. -/
def closes (g : Register π) (who : π) : Syscall → Bool
  | .mqClose mqd => g.refers who mqd
  | _ => false

/-- The registration is the one that is given, or none. -/
def watch (g : Register π) (w : Option (Registration π))
    (h : ∀ x ∈ w, g.refers x.who x.fd = true) : Register π :=
  ⟨g.refers, w, h⟩

/-- The registration goes unless it passes the test. -/
def keep (g : Register π) (test : Registration π → Bool) : Register π :=
  g.watch (g.watcher.filter test) fun w hw => g.watched w (Option.mem_filter_iff.mp hw).1

variable [DecidableEq π]

/-- A party gets one more descriptor of the queue. -/
def connect (g : Register π) (who : π) (fd : Int) : Register π where
  refers p f := if p = who ∧ f = fd then true else g.refers p f
  watcher := g.watcher
  watched w hw := by
    split
    · rfl
    · exact g.watched w hw

/-- With `all`, any registration of the party goes. -/
def close (g : Register π) (who : π) (fd : Int) (all : Bool) : Register π where
  refers p f := if p = who ∧ f = fd then false else g.refers p f
  watcher := g.watcher.filter fun w => ¬ (w.who = who ∧ (w.fd = fd ∨ all = true))
  watched w hw := by
    obtain ⟨hold, hkept⟩ := Option.mem_filter_iff.mp hw
    split
    · rename_i hsame
      exact absurd ⟨hsame.1, .inl hsame.2⟩ (of_decide_eq_true hkept)
    · exact g.watched w hold

end Register

section Kernel

variable {π : Type} [DecidableEq π]

/-- The answer to a call of the party `who` about the queue. An open descriptor can always be
closed. To close one that does not refer to the queue does nothing to it. -/
def answer (K : Transfer.Kernel π) (who : π) (count : Nat) (choice : Choice) :
    Prog.Env (Register π) Syscall Response := fun g c =>
  match choice, c with
  | .fail err, c =>
    if err ≠ 0 ∧ g.closes who c = false then some (⟨-1, err, .nothing⟩, g) else none
  | .done noise _ all, .mqClose mqd =>
    some (⟨0, noise, .nothing⟩, if g.refers who mqd then g.close who mqd all else g)
  | .done noise flags _, .mqGetattr mqd =>
    if g.refers who mqd then
      some (⟨0, noise, .mqAttr ⟨flags, K.maxmsg, K.msgsize, count⟩⟩, g)
    else none
  | .done noise flags _, .mqSetattr mqd attr =>
    if g.refers who mqd ∧ (attr.flags = 0 ∨ attr.flags = MqOption.nonBlocking.underlying.toInt) then
      some (⟨0, noise, .mqAttr ⟨flags, K.maxmsg, K.msgsize, count⟩⟩, g)
    else none
  | .done noise _ _, .mqNotify mqd none =>
    if g.refers who mqd then
      some (⟨0, noise, .nothing⟩, g.keep (·.who ≠ who))
    else none
  | .done noise _ _, .mqNotify mqd (some event) =>
    match g.watcher, noticeOf event with
    | none, some n =>
      if h : g.refers who mqd = true then
        some (⟨0, noise, .nothing⟩, g.watch (some ⟨who, n, mqd⟩) (by rintro _ ⟨⟩; exact h))
      else none
    | _, _ => none
  | .done .., _ => none

end Kernel

/-! ## The calls -/

/-- The calls on an `mq` that move no message, and its destructor. -/
inductive Call where
  | getattr
  | setattr (option : EnumFlag 32)
      (assertion : option.hasFlag ⟨MqOption.excl.underlying⟩ = false)
  | notifyDeregister
  | notifyNone
  | notify (notifySignal : MqNotifySignal)
  | unsafeNotify (event : Sigevent)
  | destroy

inductive Returned where
  | code (ec : ErrorCode)
  | destroyed
  | attributes (r : Result MqCurrentAttr)

namespace Call

def run (this : Mq) : Call → Sys Returned
  | .getattr => do return .attributes (← this.getattr)
  | .setattr option assertion => do return .attributes (← this.setattr option assertion)
  | .notifyDeregister => do return .code (← this.notifyDeregister)
  | .notifyNone => do return .code (← this.notifyNone)
  | .notify notifySignal => do return .code (← this.notify notifySignal)
  | .unsafeNotify event => do return .code (← this.unsafeNotify event)
  | .destroy => do
    let _ ← Wrapper.destroy this
    return .destroyed

/-- The system call under it. -/
def syscall (this : Mq) : Call → Syscall
  | .getattr => .mqGetattr this.mqD.raw
  | .setattr option _ => .mqSetattr this.mqD.raw { flags := option.flags.toInt }
  | .notifyDeregister => .mqNotify this.mqD.raw none
  | .notifyNone => .mqNotify this.mqD.raw (some (.ofPtr .none {} 0 0))
  | .notify notifySignal => .mqNotify this.mqD.raw (some notifySignal.event)
  | .unsafeNotify event => .mqNotify this.mqD.raw (some event)
  | .destroy => .mqClose this.mqD.raw

/-- What the call makes of the answer. -/
def returned (r : Response) : Call → Returned
  | .getattr | .setattr .. =>
    .attributes (if r.ret = -1 then .error ⟨r.errno⟩ else .value ⟨r.mqAttr⟩)
  | .destroy => .destroyed
  | _ => .code r.errorCode

theorem run_apply (c : Call) (this : Mq) (e : Errno) :
    c.run this e = .call (c.syscall this) fun r => .done (c.returned r, r.errno) := by
  cases c with
  | getattr =>
    simp only [run, Sys.return_apply, Mq.getattr, translated_apply]
    rfl
  | setattr option assertion =>
    simp only [run, Sys.return_apply, Mq.setattr, translated_apply]
    rfl
  | destroy =>
    simp only [run, Sys.return_apply, Wrapper.destroy_apply]
    rfl
  | _ =>
    simp only [run, Sys.return_apply, Mq.notifyDeregister, Mq.notifyNone, Mq.notify,
      Mq.unsafeNotify, commonCall_apply]
    rfl

/-- What the caller of a registration asks for. -/
def asks : Call → Option Notice
  | .notifyNone => some .nothing
  | .notify notifySignal => noticeOf notifySignal.event
  | .unsafeNotify event => noticeOf event
  | _ => none

end Call

section Parties

variable {π : Type}

/-- What the caller makes of what its call returned. The call found the register `g` and left
`g'`. -/
def entry (who : π) (this : Mq) (c : Call) (g g' : Register π) : Returned → Entry π
  | .attributes (.value a) => .attributes a
  | .attributes (.error ec) => .failed ec
  | .destroyed => .closed who this.mqD.raw (g.watcher.isSome && g'.watcher.isNone)
  | .code ec =>
    if ec.isError then .failed ec
    else match c.asks with
      | some n => .watched ⟨who, n, this.mqD.raw⟩
      | none => .unwatched who

/-! ## The machine -/

structure State (π : Type) where
  transfer : Transfer.State π
  register : Register π
  log : List (Entry π)

def State.desk (s : State π) : Desk π := ⟨s.transfer.queue.length, s.register.watcher⟩

/-- The queue is empty and nobody is registered. -/
def State.init (K : Transfer.Kernel π) (mem : π → Ptr → UInt8) (errno : π → Errno) : State π :=
  ⟨Transfer.State.init mem errno, ⟨K.refers, none, by simp⟩, []⟩

inductive Action (π : Type) where
  /-- A party writes to its memory. -/
  | store (who : π) (mem : Ptr → UInt8)
  /-- A party opens the queue once more. -/
  | connect (who : π) (fd : Int)
  /-- A party sends or receives; `receiving` says that another one waits for a message. -/
  | message (who : π) (this : Mq) (c : Transfer.MqCall) (choice : Transfer.Choice)
      (receiving : Bool)
  | call (who : π) (this : Mq) (c : Call) (choice : Choice)

/-- Who is told when the queue goes from `q` to `q'`. -/
def told (q q' : List Transfer.Msg) (receiving : Bool) (watcher : Option (Registration π)) :
    Option (Registration π) :=
  if q = [] ∧ q' ≠ [] ∧ receiving = false then watcher else none

variable [DecidableEq π]

def step (K : Transfer.Kernel π) (s : State π) : Action π → Option (State π)
  | .store who mem => do
    let transfer ← Transfer.step K s.transfer (.store who mem)
    return { s with transfer := transfer }
  | .connect who fd =>
    if s.register.refers who fd = false then
      some { s with register := s.register.connect who fd }
    else none
  | .message who this c choice receiving => do
    let transfer ← Transfer.step (s.register.kernel K) s.transfer (.call who this c choice)
    let told := told s.transfer.queue transfer.queue receiving s.register.watcher
    return {
      transfer := transfer
      register := if told.isSome then s.register.keep (fun _ => false) else s.register
      log := s.log ++ (transfer.log.drop s.transfer.log.length).map (.message · told) }
  | .call who this c choice => do
    let x ← Sys.exec (answer K who s.transfer.queue.length choice) (s.transfer.errno who)
      s.register (c.run this)
    let ((returned, err), register) := x
    return {
      transfer := { s.transfer with errno := Function.update s.transfer.errno who err }
      register := register
      log := s.log ++ [entry who this c s.register register returned] }

end Parties

/-! ## Steps -/

section Steps

variable {π : Type} [DecidableEq π] {K : Transfer.Kernel π} {s s' : State π} {who : π} {this : Mq}
  {g g' : Register π}

/-- A registration that is carried out is seen as one. -/
theorem notify_serves {c : Call} {event : Sigevent} {n : Nat} {noise flags : Int} {all : Bool}
    {r : Response} (hsyscall : c.syscall this = .mqNotify this.mqD.raw (some event))
    (hasks : c.asks = noticeOf event) (hreturned : c.returned r = .code r.errorCode)
    (h : answer K who n (.done noise flags all) g (c.syscall this) = some (r, g')) :
    Serves K.maxmsg K.msgsize ⟨n, g.watcher⟩ (entry who this c g g' (c.returned r))
      ⟨n, g'.watcher⟩ := by
  rw [hsyscall] at h
  simp only [answer] at h
  split at h
  · rename_i notice hnone hnotice
    split at h
    · cases h
      have hentry : ∀ g', entry who this c g g' (.code {}) =
          .watched ⟨who, notice, this.mqD.raw⟩ := by
        intro g'
        simp [entry, ErrorCode.isError, hasks, hnotice]
      rw [hreturned, hnone]
      exact hentry _ ▸ .watched
    · cases h
  · cases h

/-- A destructor that closes no descriptor of the queue withdraws no registration. -/
theorem other_serves {n : Nat} {fd : Int} (hother : g.refers who fd = false) :
    Serves K.maxmsg K.msgsize ⟨n, g.watcher⟩
      (.closed who fd (g.watcher.isSome && g.watcher.isNone)) ⟨n, g.watcher⟩ := by
  have hkept : (g.watcher.isSome && g.watcher.isNone) = false := by cases g.watcher <;> rfl
  rw [hkept]
  apply Serves.left
  rintro w hw ⟨rfl, rfl⟩
  exact absurd (g.watched w hw) (Bool.eq_false_iff.mp hother)

/-- A call that fails is seen as one, or is a destructor. -/
theorem fail_serves {n : Nat} (c : Call) {err : Errno} (herr : err ≠ 0)
    (hother : g.closes who (c.syscall this) = false) :
    Serves K.maxmsg K.msgsize ⟨n, g.watcher⟩
      (entry who this c g g (c.returned ⟨-1, err, .nothing⟩)) ⟨n, g.watcher⟩ := by
  cases c with
  | getattr => exact .failed
  | setattr option assertion => exact .failed
  | destroy => exact other_serves hother
  | _ =>
    simp only [Call.returned, entry, Response.errorCode_fail, ErrorCode.isError_mk herr, if_true]
    exact .failed

/-- A destructor withdraws the registration of its party, or leaves one that was not made
through its descriptor. -/
theorem close_serves {n : Nat} (K : Transfer.Kernel π) (who : π) (fd : Int) (all : Bool)
    (g : Register π) :
    Serves K.maxmsg K.msgsize ⟨n, g.watcher⟩
      (.closed who fd (g.watcher.isSome && (g.close who fd all).watcher.isNone))
      ⟨n, (g.close who fd all).watcher⟩ := by
  cases hw : g.watcher with
  | none =>
    simp only [Register.close, hw, Option.filter_none]
    exact .left (by simp)
  | some w =>
    by_cases hends : w.who = who ∧ (w.fd = fd ∨ all = true)
    · obtain ⟨rfl, hends⟩ := hends
      simp only [Register.close, hw, Option.filter_some, hends, and_self, not_true_eq_false,
        decide_false, Bool.false_eq_true, if_false]
      exact .closed
    · simp only [Register.close, hw, Option.filter_some, hends, not_false_eq_true, decide_true,
        if_true]
      apply Serves.left
      rintro _ ⟨⟩ ⟨hwho, hfd⟩
      exact hends ⟨hwho, .inl hfd⟩

/-- What a call reports of an answer is what the kernel did. -/
theorem call_serves {c : Call} {choice : Choice} {n : Nat} {r : Response}
    (h : answer K who n choice g (c.syscall this) = some (r, g')) :
    Serves K.maxmsg K.msgsize ⟨n, g.watcher⟩ (entry who this c g g' (c.returned r))
      ⟨n, g'.watcher⟩ := by
  cases choice with
  | fail err =>
    simp only [answer] at h
    split at h
    · rename_i hfail
      cases h
      exact fail_serves c hfail.1 hfail.2
    · cases h
  | done noise flags all =>
    cases c with
    | getattr =>
      simp only [Call.syscall, answer] at h
      split at h
      · cases h
        exact .attributes rfl rfl rfl
      · cases h
    | setattr option assertion =>
      simp only [Call.syscall, answer] at h
      split at h
      · cases h
        exact .attributes rfl rfl rfl
      · cases h
    | notifyDeregister =>
      simp only [Call.syscall, answer] at h
      split at h
      · cases h
        exact .unwatched
      · cases h
    | notifyNone => exact notify_serves rfl rfl rfl h
    | notify notifySignal => exact notify_serves rfl rfl rfl h
    | unsafeNotify event => exact notify_serves rfl rfl rfl h
    | destroy =>
      simp only [Call.syscall, answer, Option.some.injEq, Prod.mk.injEq] at h
      obtain ⟨-, rfl⟩ := h
      simp only [Call.returned, entry]
      split
      · exact close_serves ..
      · rename_i hother
        exact other_serves (Bool.eq_false_iff.mpr hother)

omit [DecidableEq π] in
/-- Nobody is told unless a message comes to an empty queue. -/
theorem told_eq_none {q q' : List Transfer.Msg} {receiving : Bool} {w : Option (Registration π)}
    (h : q = [] → q' = []) : told q q' receiving w = none := by
  apply if_neg
  intro ⟨hq, hq', _⟩
  exact hq' (h hq)

omit [DecidableEq π] in
/-- A queue that grows had room. -/
theorem room_of_grows {c : Transfer.MqCall} {choice : Transfer.Choice}
    {q q' : List Transfer.Msg} {mem mem' : Ptr → UInt8} {r : Response}
    (h : K.answer who choice (q, mem) (c.syscall this) = some (r, q', mem'))
    (hlt : q.length < q'.length) : q.length < K.maxmsg := by
  cases choice with
  | fail err =>
    have hsame := (Transfer.answer_fail h).2.2.1
    exact absurd hlt (hsame ▸ Nat.lt_irrefl _)
  | done noise =>
    rw [Transfer.answer_done] at h
    split at h
    · unfold Transfer.Kernel.put at h
      split at h
      · rename_i hput
        exact hput.2.2.2
      · cases h
    · unfold Transfer.Kernel.get at h
      split at h
      · cases h
      · split at h
        · cases h
          exact absurd hlt (by simp)
        · cases h

/-- What a call that sends or receives does to the queue is what the desk expects. -/
theorem message_serves {c : Transfer.MqCall} {q q' : List Transfer.Msg} {e : Transfer.Entry}
    (receiving : Bool) (g : Register π) (hroom : q.length < q'.length → q.length < K.maxmsg)
    (he : Transfer.Effect (g.kernel K) q c q' e) :
    Serves K.maxmsg K.msgsize ⟨q.length, g.watcher⟩
      (.message e (told q q' receiving g.watcher))
      ⟨q'.length, (if (told q q' receiving g.watcher).isSome then g.keep (fun _ => false)
        else g).watcher⟩ := by
  cases he with
  | failed ec =>
    rw [told_eq_none id]
    exact .refused
  | received m _ message hq hprio hinside =>
    rw [told_eq_none (by simp [hq]), hq]
    exact .received
  | sent m hlen =>
    have hlength : (Transfer.enqueue m q).length = q.length + 1 :=
      (Transfer.enqueue_perm m q).length_eq
    have hlt : q.length < K.maxmsg := hroom (by omega)
    rw [hlength]
    cases htold : told q (Transfer.enqueue m q) receiving g.watcher with
    | none => exact .sent hlt
    | some w =>
      unfold told at htold
      split at htold
      · rename_i hcame
        rw [hcame.1] at hlt ⊢
        have hnone : (g.keep fun _ => false).watcher = none := by
          simp [Register.keep, Register.watch, htold]
        rw [Option.isSome_some, if_pos rfl, hnone, htold]
        exact .told hlt
      · cases htold

/-- A step of the machine is a step of the desk with an entry of its own, or none. -/
theorem step_logs {a : Action π} (hs : Transfer.Inv K s.transfer) (h : step K s a = some s') :
    Transfer.Inv K s'.transfer ∧
      Replays.Logs (Serves K.maxmsg K.msgsize) State.desk State.log s s' := by
  cases a with
  | store who mem =>
    simp only [step, Option.bind_eq_bind, Option.bind_eq_some_iff] at h
    obtain ⟨t, ht, hs'⟩ := h
    have hinv := Transfer.step_inv hs ht
    cases ht
    cases hs'
    exact ⟨hinv, .inl ⟨rfl, rfl⟩⟩
  | connect who fd =>
    simp only [step] at h
    split at h
    · cases h
      exact ⟨hs, .inl ⟨rfl, rfl⟩⟩
    · cases h
  | message who this c choice receiving =>
    simp only [step, Option.bind_eq_bind, Option.bind_eq_some_iff] at h
    obtain ⟨t, ht, hs'⟩ := h
    cases hs'
    -- The limits of the queue do not depend on who refers to it.
    have hs' : Transfer.Inv (s.register.kernel K) s.transfer := ⟨hs.toDelivered, hs.fits⟩
    have ht' := Transfer.step_inv hs' ht
    refine ⟨⟨ht'.toDelivered, ht'.fits⟩, .inr ?_⟩
    obtain ⟨r, mem, hanswer, hlog⟩ := Transfer.step_call_cases ht
    have hroom := room_of_grows (K := s.register.kernel K) hanswer
    refine ⟨_, by rw [hlog, List.drop_left]; rfl, ?_⟩
    exact message_serves receiving s.register hroom (Transfer.answer_effect hs'.fits hanswer)
  | call who this c choice =>
    simp only [step, Sys.exec, Call.run_apply, Prog.exec] at h
    cases hanswer : answer K who s.transfer.queue.length choice s.register (c.syscall this) with
    | none =>
      rw [hanswer] at h
      cases h
    | some x =>
      rw [hanswer] at h
      cases h
      exact ⟨⟨⟨hs.history, hs.inside⟩, hs.fits⟩, .inr ⟨_, rfl, call_serves hanswer⟩⟩

/-- In every run what the parties saw replays on the desk. -/
theorem replays_always (K : Transfer.Kernel π) (mem : π → Ptr → UInt8) (errno : π → Errno)
    (as : List (Action π)) :
    Machine.Always (step K)
      (fun s => Replays (Serves K.maxmsg K.msgsize) ⟨0, none⟩ s.log s.desk)
      (State.init K mem errno) as :=
  Replays.always (I := fun s => Transfer.Inv K s.transfer) (s := State.init K mem errno) step_logs
    (Transfer.inv_init mem errno) rfl as

end Steps

end Service
