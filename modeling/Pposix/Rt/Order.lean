-- SUMMARY: The order in which the parties on a message queue receive what was sent.
import Mathlib.Data.Nat.Basic
import Pposix.Base.FirstOut
import Pposix.Rt.Transfer

/-!
# Order of delivery

What is received is the oldest of the messages with the highest priority, over every
interleaving of the calls of the parties, the timed ones among them.
-/

namespace Transfer

variable {π : Type} {K : Kernel π} {s s' : State π}

def Msg.rank (m : Msg) : Nat := m.prio.toNat

/-- The history is ordered for the queue by the priorities that the parties see. -/
def InOrder (s : State π) : Prop := Delivery.Ordered Msg.rank s.history s.queue

/-- Priorities are compared as numbers. -/
theorem enqueue_eq_insert (m : Msg) (q : List Msg) :
    enqueue m q = q.takeWhile (m.rank ≤ ·.rank) ++ m :: q.dropWhile (m.rank ≤ ·.rank) := by
  have hprio : (fun x : Msg => decide (m.prio ≤ x.prio)) = fun x => decide (m.rank ≤ x.rank) := by
    funext x
    exact decide_eq_decide.mpr UInt32.le_iff_toNat_le
  unfold enqueue
  rw [hprio]

/-- Whatever a call does, the order is kept. -/
theorem InOrder.effect {c : MqCall} {q : List Msg} {e : Entry} (hs : InOrder s)
    (he : Effect K s.queue c q e) (hqueue : s'.queue = q) (hlog : s'.log = s.log ++ [e]) :
    InOrder s' := by
  unfold InOrder
  rw [history_append hlog, hqueue]
  cases he with
  | failed ec => simpa [Entry.event, InOrder] using hs
  | sent m _ =>
    rw [enqueue_eq_insert]
    exact Delivery.Ordered.insert hs m
  | received m _ message hq hprio _ =>
    have hhead : Delivery.Ordered Msg.rank s.history (m :: q) := hq ▸ hs
    simpa [Entry.event, hprio] using hhead.got

variable [DecidableEq π]

theorem step_inOrder {a : Action π} (hs : Inv K s ∧ InOrder s) (h : step K s a = some s') :
    Inv K s' ∧ InOrder s' := by
  refine ⟨step_inv hs.1 h, ?_⟩
  cases a with
  | store who mem =>
    cases h
    exact hs.2
  | call who this c choice =>
    obtain ⟨r, mem, hanswer, hlog⟩ := step_call_cases h
    exact hs.2.effect (answer_effect hs.1.fits hanswer) rfl hlog

/-- No receive passes over a message that was waiting and has a higher priority, or the
same and was sent before, in every run of every number of parties. -/
theorem received_in_order (K : Kernel π) (mem : π → Ptr → UInt8) (errno : π → Errno)
    (as : List (Action π)) : Machine.Always (step K) InOrder (State.init mem errno) as := by
  refine Machine.Guarded.always (I := fun s => Inv K s ∧ InOrder s) (fun hs => hs.2)
    (fun hs _ => step_inOrder hs) (Machine.Guarded.of_forall (fun _ _ => trivial) as _) ?_
  exact ⟨inv_init mem errno, Delivery.ordered_nil⟩

end Transfer
