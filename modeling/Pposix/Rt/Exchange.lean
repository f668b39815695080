-- SUMMARY: Parties that open, unlink and close message queues by name and send and receive over them, in any interleaving: their log replays on a board.
import Pposix.Base.Replay
import Pposix.Rt.Names

/-!
# Exchange over named queues

The parties share the names and the queues, and each has descriptors of its own. Other code
makes the queues. What the parties see replays on a board, which says what names and
descriptors stand for and what the queues hold.
-/

namespace Exchange

open Transfer (Msg MqCall)

/-! ## What is promised -/

/-- What the parties see, and what other code makes. The number of a queue is for the
statements: no code reads it. -/
inductive Entry (π : Type) where
  | created (name : String) (i : Nat)
  | opened (who : π) (fd : Int) (name : String) (mode : MqMode) (i : Nat)
  | closed (who : π) (fd : Int)
  | unlinked (name : String)
  | message (who : π) (fd : Int) (e : Transfer.Entry) (i : Nat)
  | failed (ec : ErrorCode)

/-- The queues that names and descriptors stand for, and the messages in them. -/
structure Board (π : Type) where
  named : String → Option Nat
  linked : π → Int → Option (Nat × MqMode)
  held : Nat → Option (List Msg)

section Promises

variable {π : Type}

def Board.name (b : Board π) (name : String) (i : Option Nat) : Board π :=
  { b with named := Function.update b.named name i }

def Board.hold (b : Board π) (i : Nat) (q : List Msg) : Board π :=
  { b with held := Function.update b.held i (some q) }

variable [DecidableEq π]

def Board.link (b : Board π) (who : π) (fd : Int) (d : Option (Nat × MqMode)) : Board π :=
  { b with linked := fun p f => if p = who ∧ f = fd then d else b.linked p f }

/-- What an entry does to the board. -/
inductive Passes (b : Board π) : Entry π → Board π → Prop where
  | created {name : String} {i : Nat} : b.named name = none → b.held i = none →
      Passes b (.created name i) ((b.name name (some i)).hold i [])
  | opened {who : π} {fd : Int} {name : String} {mode : MqMode} {i : Nat} :
      b.named name = some i → Passes b (.opened who fd name mode i) (b.link who fd (some (i, mode)))
  | closed {who : π} {fd : Int} : Passes b (.closed who fd) (b.link who fd none)
  | unlinked {name : String} : Passes b (.unlinked name) (b.name name none)
  | sent {who : π} {fd : Int} {i : Nat} {mode : MqMode} {q : List Msg} {m : Msg} :
      b.linked who fd = some (i, mode) → mode.writes → b.held i = some q →
      Passes b (.message who fd (.sent m) i) (b.hold i (Transfer.enqueue m q))
  | received {who : π} {fd : Int} {i : Nat} {mode : MqMode} {q : List Msg} {buffer : ByteSpan}
      {message : MqMessage} {bytes : List UInt8} :
      b.linked who fd = some (i, mode) → mode.reads →
      b.held i = some (⟨bytes, message.priority.value⟩ :: q) →
      View.Within 1 message.messageBytes buffer →
      Passes b (.message who fd (.received buffer message bytes) i) (b.hold i q)
  | refused {who : π} {fd : Int} {ec : ErrorCode} {i : Nat} :
      Passes b (.message who fd (.failed ec) i) b
  | failed {ec : ErrorCode} : Passes b (.failed ec) b

end Promises

/-! ## The machine -/

section Machine

variable {π : Type}

/-- The queue behind a descriptor. -/
def Hall.behind (h : Hall π) (who : π) (fd : Int) : Nat :=
  ((h.desc who fd).map Prod.fst).getD 0

/-- The entry for a call from `h` and the memory `mem` to `h'` and `mem'`. -/
def Seen.entry (who : π) (h h' : Hall π) (mem mem' : Ptr → UInt8) : Seen → Entry π
  | .opened name mode q => .opened who q.mqD.raw name mode (h'.behind who q.mqD.raw)
  | .unlinked name => .unlinked name
  | .destroyed fd => .closed who fd
  | .message fd c r => .message who fd (Transfer.entry c mem mem' r) (h.behind who fd)
  | .failed ec => .failed ec

structure State (π : Type) where
  hall : Hall π
  mem : π → Ptr → UInt8
  errno : π → Errno
  log : List (Entry π)

/-- There are no queues at the start. -/
def State.init (mem : π → Ptr → UInt8) (errno : π → Errno) : State π :=
  ⟨⟨fun _ => none, fun _ => none, fun _ _ => none⟩, mem, errno, []⟩

inductive Action (π : Type) where
  /-- A party writes to its memory. -/
  | store (who : π) (mem : Ptr → UInt8)
  /-- Other code makes a queue under a name that is free. -/
  | create (name : String) (i maxmsg msgsize : Nat)
  | call (who : π) (c : Call) (choice : Choice)

variable [DecidableEq π]

def step (prioMax : Nat) (s : State π) : Action π → Option (State π)
  | .store who mem => some { s with mem := Function.update s.mem who mem }
  | .create name i maxmsg msgsize =>
    if s.hall.names name = none ∧ (s.hall.queues i).isNone then
      some { s with
        hall := (s.hall.name name (some i)).hold i ⟨maxmsg, msgsize, []⟩
        log := s.log ++ [.created name i] }
    else none
  | .call who c choice => do
    let x ← Sys.exec (answer prioMax who choice) (s.errno who) (s.hall, s.mem who) c.run
    let ((seen, err), (hall, mem)) := x
    return {
      hall := hall
      mem := Function.update s.mem who mem
      errno := Function.update s.errno who err
      log := s.log ++ [seen.entry who s.hall hall (s.mem who) mem] }

end Machine

/-! ## The board of a hall -/

section Steps

variable {π : Type}

def Hall.abs (h : Hall π) : Board π where
  named := h.names
  linked who fd := (h.desc who fd).map fun d => (d.1, modeOf d.2)
  held i := (h.queues i).map Queue.messages

/-- The messages in every queue are within its limit. -/
def Fits (h : Hall π) : Prop :=
  ∀ i q, h.queues i = some q → ∀ m ∈ q.messages, m.bytes.length ≤ q.msgsize

variable {prioMax : Nat} {who : π} {h h' : Hall π} {mem mem' : Ptr → UInt8} {r : Response}

theorem abs_hold (h : Hall π) (i : Nat) (q : Queue) :
    (h.hold i q).abs = h.abs.hold i q.messages := by
  simp only [Hall.abs, Hall.hold, Board.hold, Board.mk.injEq, true_and]
  refine ⟨rfl, ?_⟩
  funext j
  by_cases hj : j = i
  · subst hj
    simp
  · simp [Function.update_of_ne hj]

theorem hold_self {i : Nat} {q : Queue} (hq : h.queues i = some q) : h.hold i q = h := by
  unfold Hall.hold
  rw [← hq, Function.update_eq_self]

theorem Fits.hold (hfits : Fits h) {i : Nat} {q : Queue}
    (hq : ∀ m ∈ q.messages, m.bytes.length ≤ q.msgsize) : Fits (h.hold i q) := by
  intro j q' hq'
  by_cases hj : j = i
  · subst hj
    simp only [Hall.hold, Function.update_self] at hq'
    cases hq'
    exact hq
  · simp only [Hall.hold, Function.update_of_ne hj] at hq'
    exact hfits j q' hq'

theorem abs_link [DecidableEq π] (h : Hall π) (who : π) (fd : Nat) (d : Option (Nat × Word)) :
    (h.link who fd d).abs = h.abs.link who fd (d.map fun d => (d.1, modeOf d.2)) := by
  simp only [Hall.abs, Hall.link, Board.link, Board.mk.injEq, and_true, true_and]
  funext p f
  cases f with
  | negSucc n =>
    have hne : ¬ (p = who ∧ Int.negSucc n = fd) := by simp
    rw [if_neg hne]
    rfl
  | ofNat n =>
    simp only [Hall.desc, Int.ofNat_eq_natCast, Int.natCast_inj]
    split <;> rfl

/-! ## What a call does -/

variable {c : MqCall} {this : Mq}

/-- The mode that a call needs is that of what it does. -/
theorem target_syscall (c : MqCall) (this : Mq) :
    target (c.syscall this) =
      some (this.mqD.raw, if c.priority.isSome then MqMode.writes else MqMode.reads) := by
  cases c <;> rfl

theorem priority_of_sent {m : Msg}
    (he : Transfer.entry c mem mem' (c.returned r) = .sent m) : c.priority.isSome = true := by
  cases hprio : c.priority with
  | some prio => rfl
  | none =>
    simp only [MqCall.returned, hprio] at he
    cases hreceived : Mq.receivedOf c.view r <;> (rw [hreceived] at he; cases he)

theorem priority_of_received {buffer : ByteSpan} {message : MqMessage} {bytes : List UInt8}
    (he : Transfer.entry c mem mem' (c.returned r) = .received buffer message bytes) :
    c.priority.isSome = false := by
  cases hprio : c.priority with
  | none => rfl
  | some prio =>
    simp only [MqCall.returned, hprio, Transfer.entry] at he
    split at he <;> cases he

/-- A call that sends or receives is carried out on the queue of its descriptor, with a mode
that allows it. -/
theorem deliver_cases {noise : Errno}
    (hdeliver : h.deliver prioMax who noise mem (c.syscall this) = some (r, h', mem')) :
    ∃ i flags q messages, h.desc who this.mqD.raw = some (i, flags) ∧ h.queues i = some q ∧
      (if c.priority.isSome then MqMode.writes else MqMode.reads) (modeOf flags) = true ∧
      (q.kernel π prioMax).answer who (.done noise) (q.messages, mem) (c.syscall this) =
        some (r, messages, mem') ∧
      h' = h.hold i { q with messages := messages } := by
  unfold Hall.deliver at hdeliver
  rw [target_syscall] at hdeliver
  generalize (if c.priority.isSome then MqMode.writes else MqMode.reads) = allows at hdeliver ⊢
  simp only [Option.bind_eq_bind, Option.bind_some, Option.bind_eq_some_iff] at hdeliver
  obtain ⟨⟨i, flags⟩, hdesc, q, hq, hdeliver⟩ := hdeliver
  split at hdeliver
  · rename_i hallowed
    obtain ⟨⟨r, messages, mem⟩, hanswer, heq⟩ := Option.bind_eq_some_iff.mp hdeliver
    cases heq
    exact ⟨i, flags, q, messages, hdesc, hq, hallowed, hanswer, rfl⟩
  · cases hdeliver

/-- What is in a queue after a call is within its limit. -/
theorem effect_fits {K : Transfer.Kernel π} {q q' : List Msg} {e : Transfer.Entry}
    (hq : ∀ m ∈ q, m.bytes.length ≤ K.msgsize) (he : Transfer.Effect K q c q' e) :
    ∀ m ∈ q', m.bytes.length ≤ K.msgsize := by
  cases he with
  | failed ec => exact hq
  | sent m hlen =>
    intro m' hm'
    cases List.mem_cons.mp ((Transfer.enqueue_perm m q).mem_iff.mp hm') with
    | inl hnew => exact hnew ▸ hlen
    | inr hold => exact hq m' hold
  | received m _ message hhead hprio hinside =>
    intro m' hm'
    exact hq m' (hhead ▸ List.mem_cons_of_mem m hm')

variable [DecidableEq π]

theorem answer_message_fail {err : Errno}
    (hanswer : answer prioMax who (.fail err) (h, mem) (c.syscall this) = some (r, h', mem')) :
    err ≠ 0 ∧ r = ⟨-1, err, .nothing⟩ ∧ h' = h ∧ mem' = mem := by
  have hcond : (if ∃ t ∈ Transfer.timed (c.syscall this),
      err ≠ 0 ∧ (err = Transfer.etimedout → t = true) then
        some ((⟨-1, err, .nothing⟩ : Response), h, mem) else none) = some (r, h', mem') := by
    cases c <;> exact hanswer
  split at hcond
  · rename_i hfail
    obtain ⟨-, -, herr, -⟩ := hfail
    cases hcond
    exact ⟨herr, rfl, rfl, rfl⟩
  · cases hcond

theorem answer_message_done (prioMax : Nat) (who : π) (noise : Errno) (fd : Nat) (h : Hall π)
    (mem : Ptr → UInt8) (c : MqCall) (this : Mq) :
    answer prioMax who (.done noise fd) (h, mem) (c.syscall this) =
      h.deliver prioMax who noise mem (c.syscall this) := by
  cases c <;> rfl

/-- A call that sends or receives passes a message through the queue of its descriptor. -/
theorem message_passes {choice : Choice} (hfits : Fits h)
    (hanswer : answer prioMax who choice (h, mem) (c.syscall this) = some (r, h', mem')) :
    Fits h' ∧ Passes h.abs (.message who this.mqD.raw (Transfer.entry c mem mem' (c.returned r))
      (h.behind who this.mqD.raw)) h'.abs := by
  cases choice with
  | fail err =>
    obtain ⟨herr, rfl, rfl, rfl⟩ := answer_message_fail hanswer
    rw [Transfer.entry_fail herr]
    exact ⟨hfits, .refused⟩
  | done noise fd =>
    rw [answer_message_done] at hanswer
    obtain ⟨i, flags, q, messages, hdesc, hq, hallowed, hdone, rfl⟩ := deliver_cases hanswer
    have hbehind : h.behind who this.mqD.raw = i := by simp [Hall.behind, hdesc]
    have hlinked : h.abs.linked who this.mqD.raw = some (i, modeOf flags) := by
      simp [Hall.abs, hdesc]
    have hheld : h.abs.held i = some q.messages := by simp [Hall.abs, hq]
    have heffect := Transfer.answer_effect (hfits i q hq) hdone
    refine ⟨hfits.hold (effect_fits (hfits i q hq) heffect), ?_⟩
    rw [hbehind, abs_hold]
    generalize hentry : Transfer.entry c mem mem' (c.returned r) = e at heffect
    cases heffect with
    | failed ec =>
      have hsame : h.abs.hold i q.messages = h.abs := by rw [← abs_hold, hold_self hq]
      rw [hsame]
      exact .refused
    | sent m hlen =>
      rw [priority_of_sent hentry] at hallowed
      exact .sent hlinked hallowed hheld
    | received m _ message hhead hprio hinside =>
      rw [priority_of_received hentry] at hallowed
      rw [hhead] at hheld
      have hheld' : h.abs.held i = some (⟨m.bytes, message.priority.value⟩ :: messages) := by
        rw [hheld, hprio]
      exact .received hlinked hallowed hheld' hinside

/-- An opening links a descriptor to the queue that its name stands for. -/
theorem open_passes {name : String} {mode : MqMode} {o : Opening} {choice : Choice}
    (hanswer : answer prioMax who choice (h, mem) (.mqOpen name (o.word mode) o.args) =
      some (r, h', mem')) :
    (h'.queues = h.queues) ∧
      Passes h.abs ((opened name mode (r.result Wrapper.ofRaw)).entry who h h' mem mem') h'.abs := by
  cases choice with
  | fail err =>
    simp only [answer] at hanswer
    split at hanswer
    · cases hanswer
      exact ⟨rfl, .failed⟩
    · cases hanswer
  | done noise fd =>
    simp only [answer] at hanswer
    split at hanswer
    · obtain ⟨i, hname, heq⟩ := Option.map_eq_some_iff.mp hanswer
      cases heq
      have hret : ¬ (fd : Int) = -1 := by omega
      have hraw : (Wrapper.ofRaw (fd : Int) : Mq).mqD.raw = fd := rfl
      have hbehind : (h.link who fd (some (i, o.word mode))).behind who fd = i := by
        simp [Hall.behind, Hall.desc, Hall.link]
      refine ⟨rfl, ?_⟩
      rw [abs_link, Option.map_some, o.modeOf_word]
      simp only [Response.result, if_neg hret, opened, Seen.entry, hraw, hbehind]
      exact .opened hname
    · cases hanswer

theorem unlink_passes {name : String} {choice : Choice}
    (hanswer : answer prioMax who choice (h, mem) (.mqUnlink name) = some (r, h', mem')) :
    (h'.queues = h.queues) ∧
      Passes h.abs ((unlinked name r.errorCode).entry who h h' mem mem') h'.abs := by
  cases choice with
  | fail err =>
    simp only [answer] at hanswer
    split at hanswer
    · rename_i herr
      cases hanswer
      have hseen : unlinked name ⟨err⟩ = .failed ⟨err⟩ := if_pos (ErrorCode.isError_mk herr)
      rw [Response.errorCode_fail, hseen]
      exact ⟨rfl, .failed⟩
    · cases hanswer
  | done noise fd =>
    simp only [answer] at hanswer
    split at hanswer
    · cases hanswer
      exact ⟨rfl, .unlinked⟩
    · cases hanswer

/-- A descriptor that is not open is linked to nothing. -/
theorem abs_link_none {fd : Int} (hfd : h.desc who fd = none) : h.abs.link who fd none = h.abs := by
  simp only [Hall.abs, Board.link, Board.mk.injEq, and_true, true_and]
  funext p f
  split
  · rename_i hsame
    obtain ⟨rfl, rfl⟩ := hsame
    rw [hfd]
    rfl
  · rfl

/-- After a destructor the descriptor is linked to nothing, whether or not it was open. -/
theorem destroy_passes {fd : Int} {choice : Choice}
    (hanswer : answer prioMax who choice (h, mem) (.mqClose fd) = some (r, h', mem')) :
    (h'.queues = h.queues) ∧ Passes h.abs (.closed who fd) h'.abs := by
  have hclosed : Passes h.abs (.closed who fd) (h.abs.link who fd none) := .closed
  cases fd with
  | negSucc n =>
    have heq : answer prioMax who choice (h, mem) (.mqClose (.negSucc n)) =
        some (⟨-1, ebadf, .nothing⟩, h, mem) := by
      cases choice <;> rfl
    cases heq.symm.trans hanswer
    rw [abs_link_none rfl] at hclosed
    exact ⟨rfl, hclosed⟩
  | ofNat n =>
    have heq : answer prioMax who choice (h, mem) (.mqClose (.ofNat n)) =
        if (h.descs who n).isSome then
          some (⟨0, choice.errno, .nothing⟩, h.link who n none, mem)
        else some (⟨-1, ebadf, .nothing⟩, h, mem) := by
      cases choice <;> rfl
    rw [heq] at hanswer
    split at hanswer
    · cases hanswer
      rw [abs_link]
      exact ⟨rfl, hclosed⟩
    · rename_i hopen
      cases hanswer
      have hnone : h.desc who (.ofNat n) = none := Option.not_isSome_iff_eq_none.mp hopen
      rw [abs_link_none hnone] at hclosed
      exact ⟨rfl, hclosed⟩

/-- A call does to the board what its entry says. -/
theorem call_passes {c : Call} {choice : Choice} (hfits : Fits h)
    (hanswer : answer prioMax who choice (h, mem) c.syscall = some (r, h', mem')) :
    Fits h' ∧ Passes h.abs ((c.sees r).entry who h h' mem mem') h'.abs := by
  have hkept : h'.queues = h.queues → Fits h' := by
    intro hqueues
    unfold Fits
    rw [hqueues]
    exact hfits
  cases c with
  | open_ name mode o => exact (open_passes hanswer).imp_left hkept
  | unlink name => exact (unlink_passes hanswer).imp_left hkept
  | destroy this => exact (destroy_passes hanswer).imp_left hkept
  | message this c => exact message_passes hfits hanswer

/-! ## Runs -/

/-- Nothing is named, linked or held. -/
def Board.empty : Board π := ⟨fun _ => none, fun _ _ => none, fun _ => none⟩

theorem step_logs {s s' : State π} {a : Action π} (hfits : Fits s.hall)
    (hstep : step prioMax s a = some s') :
    Fits s'.hall ∧ Replays.Logs Passes (fun s => s.hall.abs) State.log s s' := by
  cases a with
  | store who mem =>
    cases hstep
    exact ⟨hfits, .inl ⟨rfl, rfl⟩⟩
  | create name i maxmsg msgsize =>
    simp only [step] at hstep
    split at hstep
    · rename_i hfree
      cases hstep
      have hfits' : Fits (s.hall.name name (some i)) := hfits
      refine ⟨hfits'.hold (by simp), .inr ⟨_, rfl, ?_⟩⟩
      have hfree' : s.hall.abs.held i = none := by simpa [Hall.abs] using hfree.2
      simp only [abs_hold]
      exact .created hfree.1 hfree'
    · cases hstep
  | call who c choice =>
    simp only [step, Call.exec_run] at hstep
    cases hanswer : answer prioMax who choice (s.hall, s.mem who) c.syscall with
    | none =>
      rw [hanswer] at hstep
      cases hstep
    | some x =>
      rw [hanswer] at hstep
      cases hstep
      obtain ⟨hfits', hpasses⟩ := call_passes hfits hanswer
      exact ⟨hfits', .inr ⟨_, rfl, hpasses⟩⟩

/-- In every run what the parties see replays on the board. -/
theorem replays_always (prioMax : Nat) (mem : π → Ptr → UInt8) (errno : π → Errno)
    (as : List (Action π)) :
    Machine.Always (step prioMax) (fun s => Replays Passes Board.empty s.log s.hall.abs)
      (State.init mem errno) as := by
  have hempty : (State.init mem errno).hall.abs = Board.empty := by
    simp only [State.init, Hall.abs, Board.empty, Board.mk.injEq, true_and]
    refine ⟨?_, rfl⟩
    funext p f
    cases f <;> rfl
  rw [← hempty]
  exact Replays.always (I := fun s => Fits s.hall) (s := State.init mem errno) step_logs
    (fun _ _ hq => nomatch hq) rfl as

end Steps

end Exchange
