-- SUMMARY: Parties that send and receive over one message queue, in any interleaving: what is received is what was sent, once.
import Pposix.Base.Delivery
import Pposix.Base.Machine
import Pposix.Rt.Queue

/-!
# Transfer over a message queue

Any number of parties send from their own memory and receive into it, each through its
own `mq` objects. The history of what they see is exact for the queue.
-/

namespace Transfer

variable {π : Type}

/-! ## The machine -/

/-- The message of a call that returned without an error. -/
def Entry.event : Entry → Option (Delivery.Event Msg)
  | .sent msg => some (.put msg)
  | .received _ message bytes => some (.got ⟨bytes, message.priority.value⟩)
  | .failed _ => none

structure State (π : Type) where
  queue : List Msg
  mem : π → Ptr → UInt8
  errno : π → Errno
  log : List Entry

/-- The messages that were sent and received. -/
def State.history (s : State π) : List (Delivery.Event Msg) := s.log.filterMap Entry.event

def State.init (mem : π → Ptr → UInt8) (errno : π → Errno) : State π := ⟨[], mem, errno, []⟩

inductive Action (π : Type) where
  /-- A party writes to its memory. -/
  | store (who : π) (mem : Ptr → UInt8)
  | call (who : π) (this : Mq) (c : MqCall) (choice : Choice)

/-! ## What is expected -/

/-- What is expected of every state: the history is exact for the queue, and every message
that was received lies in the buffer that the caller gave. -/
structure Delivered (s : State π) : Prop where
  history : Delivery.Exact s.history s.queue
  inside : ∀ buffer message bytes, Entry.received buffer message bytes ∈ s.log →
    View.Within 1 message.messageBytes buffer

/-- The messages in the queue are within its limit. -/
structure Inv (K : Kernel π) (s : State π) : Prop extends Delivered s where
  fits : ∀ m ∈ s.queue, m.bytes.length ≤ K.msgsize

variable {K : Kernel π} {s s' : State π}

theorem inv_init (mem : π → Ptr → UInt8) (errno : π → Errno) : Inv K (State.init mem errno) where
  history := Delivery.exact_nil
  inside := by simp [State.init]
  fits := by simp [State.init]

theorem history_append {e : Entry} (h : s'.log = s.log ++ [e]) :
    s'.history = s.history ++ e.event.toList := by
  unfold State.history
  rw [h, List.filterMap_append]
  cases e <;> rfl

/-- An entry that is in the log after a call is an old one or the new one. -/
theorem inside_append {e : Entry} (hs : Delivered s) (h : s'.log = s.log ++ [e])
    (he : ∀ buffer message bytes, e = .received buffer message bytes →
      View.Within 1 message.messageBytes buffer) :
    ∀ buffer message bytes, Entry.received buffer message bytes ∈ s'.log →
      View.Within 1 message.messageBytes buffer := by
  intro buffer message bytes hmem
  rw [h, List.mem_append, List.mem_singleton] at hmem
  rcases hmem with hold | hnew
  · exact hs.inside buffer message bytes hold
  · exact he buffer message bytes hnew.symm

/-- The invariant is kept by whatever a call does. -/
theorem Inv.effect {c : MqCall} {q : List Msg} {e : Entry} (hs : Inv K s)
    (he : Effect K s.queue c q e) (hqueue : s'.queue = q) (hlog : s'.log = s.log ++ [e]) :
    Inv K s' := by
  have hhistory := history_append hlog
  cases he with
  | failed ec =>
    refine ⟨⟨?_, inside_append hs.toDelivered hlog (by simp)⟩, ?_⟩
    · rw [hhistory, hqueue]
      simpa [Entry.event] using hs.history
    · rw [hqueue]
      exact hs.fits
  | sent m hlen =>
    refine ⟨⟨?_, inside_append hs.toDelivered hlog (by simp)⟩, ?_⟩
    · rw [hhistory, hqueue]
      exact (hs.history.put m).perm (enqueue_perm m s.queue).symm
    · rw [hqueue]
      intro m' hm'
      rcases List.mem_cons.mp ((enqueue_perm m s.queue).mem_iff.mp hm') with rfl | hold
      · exact hlen
      · exact hs.fits m' hold
  | received m _ message hq hprio hinside =>
    refine ⟨⟨?_, inside_append hs.toDelivered hlog ?_⟩, ?_⟩
    · have hgot := (hq ▸ hs.history).got
      rw [hhistory, hqueue]
      simpa [Entry.event, hprio] using hgot
    · rintro _ _ _ ⟨⟩
      exact hinside
    · rw [hqueue]
      intro m' hm'
      exact hs.fits m' (hq ▸ List.mem_cons_of_mem m hm')

variable [DecidableEq π]

def step (K : Kernel π) (s : State π) : Action π → Option (State π)
  | .store who mem => some { s with mem := Function.update s.mem who mem }
  | .call who this c choice => do
    let x ← Sys.exec (K.answer who choice) (s.errno who) (s.queue, s.mem who) (c.run this)
    let ((returned, err), (queue, mem)) := x
    return {
      queue := queue
      mem := Function.update s.mem who mem
      errno := Function.update s.errno who err
      log := s.log ++ [entry c (s.mem who) mem returned] }

/-! ## Steps -/

variable {who : π} {this : Mq} {c : MqCall} {choice : Choice}

/-- A call is the kernel's answer and what the wrapper makes of it. -/
theorem step_call_eq (K : Kernel π) (s : State π) (who : π) (this : Mq) (c : MqCall)
    (choice : Choice) :
    step K s (.call who this c choice) =
      (K.answer who choice (s.queue, s.mem who) (c.syscall this)).map fun x =>
        { queue := x.2.1
          mem := Function.update s.mem who x.2.2
          errno := Function.update s.errno who x.1.errno
          log := s.log ++ [entry c (s.mem who) x.2.2 (c.returned x.1)] } := by
  simp only [step, Sys.exec, MqCall.run_apply, Prog.exec]
  cases K.answer who choice (s.queue, s.mem who) (c.syscall this) with
  | none => rfl
  | some x => rfl

theorem step_call_cases (h : step K s (.call who this c choice) = some s') :
    ∃ r mem, K.answer who choice (s.queue, s.mem who) (c.syscall this) =
        some (r, s'.queue, mem) ∧
      s'.log = s.log ++ [entry c (s.mem who) mem (c.returned r)] := by
  rw [step_call_eq] at h
  obtain ⟨⟨r, queue, mem⟩, hanswer, hs'⟩ := Option.map_eq_some_iff.mp h
  subst hs'
  exact ⟨r, mem, hanswer, rfl⟩

/-! ## Runs -/

theorem step_inv {a : Action π} (hs : Inv K s) (h : step K s a = some s') : Inv K s' := by
  cases a with
  | store who mem =>
    cases h
    exact ⟨⟨hs.history, hs.inside⟩, hs.fits⟩
  | call who this c choice =>
    obtain ⟨r, mem, hanswer, hlog⟩ := step_call_cases h
    exact hs.effect (answer_effect hs.fits hanswer) rfl hlog

/-- A call that returns an error changes neither the queue nor the caller's memory. -/
def ErrorsChangeNothing (K : Kernel π) : Prop :=
  ∀ s who this c choice s' ec, step K s (.call who this c choice) = some s' →
    s'.log = s.log ++ [.failed ec] → s'.queue = s.queue ∧ s'.mem = s.mem

/-- Unless it times out, a timed call does what the same call without a time does. -/
def TimedAgree (K : Kernel π) : Prop :=
  ∀ s who this c choice, choice ≠ .fail etimedout →
    step K s (.call who this c.untimed choice) = step K s (.call who this c choice)

theorem errors_change_nothing (K : Kernel π) : ErrorsChangeNothing K := by
  intro s who this c choice s' ec h hlog
  rw [step_call_eq] at h
  obtain ⟨⟨r, queue, mem⟩, hanswer, hs'⟩ := Option.map_eq_some_iff.mp h
  subst hs'
  have hentry : entry c (s.mem who) mem (c.returned r) = .failed ec :=
    List.singleton_injective (List.append_cancel_left hlog)
  obtain ⟨hqueue, hmem⟩ := answer_of_ret hanswer (ret_of_entry_failed hentry)
  refine ⟨hqueue, ?_⟩
  simp only [hmem, Function.update_eq_self]

theorem timed_agree (K : Kernel π) : TimedAgree K := by
  intro s who this c choice htimeout
  rw [step_call_eq, step_call_eq, answer_untimed htimeout]
  simp only [entry_untimed]

/-- Transfer is exact, in every run of every number of parties. -/
theorem transfer_exact (K : Kernel π) (mem : π → Ptr → UInt8) (errno : π → Errno)
    (as : List (Action π)) :
    Machine.Always (step K) Delivered (State.init mem errno) as ∧ ErrorsChangeNothing K ∧
      TimedAgree K := by
  refine ⟨?_, errors_change_nothing K, timed_agree K⟩
  refine Machine.Guarded.always (I := Inv K) (fun hs => hs.toDelivered)
    (fun hs _ => step_inv hs) (Machine.Guarded.of_forall (fun _ _ => trivial) as _)
    (inv_init mem errno)

end Transfer
