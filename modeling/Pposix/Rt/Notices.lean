-- SUMMARY: What the attributes of a message queue show, and when a party is told that a message came.
import Mathlib.Algebra.BigOperators.Group.List.Basic
import Mathlib.Algebra.Ring.Int.Defs
import Pposix.Rt.Service

/-!
# Counts and notices

The log alone says how many messages are waiting and which registration is in force.
-/

namespace Service

variable {π : Type}

/-! ## What a log says -/

/-- What an entry adds to the number of messages. -/
def Entry.change : Entry π → Int
  | .message (.sent _) _ => 1
  | .message (.received ..) _ => -1
  | _ => 0

/-- What was sent and not yet received. -/
def waiting (log : List (Entry π)) : Int := (log.map Entry.change).sum

/-- Who is told by an entry. -/
def Entry.tells : Entry π → Option (Registration π)
  | .message _ told => told
  | _ => none

/-- The entry ends a registration of `who`: it uses it, withdraws it or is another one. -/
def Entry.Ends (who : π) (e : Entry π) : Prop :=
  e.tells ≠ none ∨ e = .unwatched who ∨ (∃ fd, e = .closed who fd true) ∨ ∃ w, e = .watched w

/-- The registration was made, and nothing ended it since. -/
def Registered (log : List (Entry π)) (w : Registration π) : Prop :=
  InForce (· = .watched w) (Entry.Ends w.who) log

variable {log : List (Entry π)} {e : Entry π} {w : Registration π}

theorem waiting_append (log : List (Entry π)) (e : Entry π) :
    waiting (log ++ [e]) = waiting log + e.change := by
  simp [waiting]

/-! ## What the desk holds -/

section Desk

variable [DecidableEq π] {maxmsg msgsize : Nat} {d : Desk π}

theorem waiting_eq (h : Replays (Serves maxmsg msgsize) ⟨0, none⟩ log d) :
    (d.waiting : Int) = waiting log := by
  induction h with
  | nil => rfl
  | snoc hlog hserves ih =>
    rw [waiting_append, ← ih]
    cases hserves <;> simp [Entry.change, Desk.withdraw]

theorem waiting_le (h : Replays (Serves maxmsg msgsize) ⟨0, none⟩ log d) :
    d.waiting ≤ maxmsg := by
  apply h.keep (P := fun d => d.waiting ≤ maxmsg) (Q := fun _ => True) (Nat.zero_le _)
  · intro b e c hb _ hserves
    cases hserves with
    | sent hlt => exact hlt
    | told hlt => exact hlt
    | received => exact Nat.le_of_succ_le hb
    | _ => exact hb
  · exact fun _ _ => trivial

/-- The watcher is the party whose registration is in force. -/
theorem watcher_iff (h : Replays (Serves maxmsg msgsize) ⟨0, none⟩ log d) :
    d.watcher = some w ↔ Registered log w := by
  induction h with
  | nil => exact iff_of_false nofun InForce.not_nil
  | snoc hlog hserves ih =>
    unfold Registered at ih ⊢
    rw [InForce.append_iff, ← ih]
    cases hserves with
    | watched => simp [Entry.Ends, eq_comm]
    | @unwatched _ who =>
      have hends : ¬ (Entry.unwatched who : Entry π).Ends w.who ↔ w.who ≠ who := by
        simp [Entry.Ends, Entry.tells, eq_comm]
      rw [hends]
      simp [Desk.withdraw, Option.filter_eq_some_iff]
    | @closed _ w' fd =>
      -- The one registration in force is the one that goes.
      have hends : (Entry.closed w'.who fd true : Entry π).Ends w.who ↔ w.who = w'.who := by
        simp [Entry.Ends, Entry.tells, eq_comm]
      rw [hends]
      simp only [reduceCtorEq, false_or, false_iff, not_and, not_not]
      intro hw
      cases hw
      rfl
    | _ => simp [Entry.Ends, Entry.tells]

/-! ## Runs -/

/-- Every answer about the attributes shows how many messages were sent and not received,
and the limits of the queue, which the count is within. -/
def CountsShown (maxmsg msgsize : Nat) (log : List (Entry π)) : Prop :=
  ∀ i a, log[i]? = some (.attributes a) →
    a.currentMessageCount = waiting (log.take i) ∧ a.maxMessageCount = (maxmsg : Int) ∧
      a.maxMessageSize = (msgsize : Int) ∧ a.currentMessageCount ≤ a.maxMessageCount

/-- A registration tells its party at most once. -/
structure ToldOnce (log : List (Entry π)) : Prop where
  /-- The party is told what it asked for, while its registration is in force. -/
  asked : ∀ i m w, log[i]? = some (.message (.sent m) (some w)) → Registered (log.take i) w
  /-- A message that tells a party came to an empty queue. -/
  empty : ∀ i m w, log[i]? = some (.message (.sent m) (some w)) → waiting (log.take i) = 0
  /-- Only a message that was sent tells a party. -/
  sent : ∀ (i : Nat) (e : Entry π), log[i]? = some e → e.tells ≠ none →
    ∃ m, e = .message (.sent m) e.tells
  /-- Nobody registers while a registration is in force. -/
  alone : ∀ i w, log[i]? = some (.watched w) → ∀ w', ¬ Registered (log.take i) w'
  /-- The destructor of the object that a registration was made through withdraws it. -/
  closed : ∀ i w withdrew, log[i]? = some (.closed w.who w.fd withdrew) →
    Registered (log.take i) w → withdrew = true
  /-- A destructor withdraws no registration but its party's. -/
  withdrew : ∀ i who fd, log[i]? = some (.closed who fd true) →
    ∃ w, Registered (log.take i) w ∧ w.who = who

theorem countsShown (h : Replays (Serves maxmsg msgsize) ⟨0, none⟩ log d) :
    CountsShown maxmsg msgsize log := by
  intro i a hi
  obtain ⟨c, c', hc, hserves⟩ := h.entry hi
  cases hserves with
  | attributes hcount hmax hsize =>
    refine ⟨hcount.trans (waiting_eq hc), hmax, hsize, ?_⟩
    rw [hcount, hmax]
    exact Int.ofNat_le.mpr (waiting_le hc)

theorem toldOnce (h : Replays (Serves maxmsg msgsize) ⟨0, none⟩ log d) : ToldOnce log where
  asked := by
    intro i m w hi
    obtain ⟨c, c', hc, hserves⟩ := h.entry hi
    cases hserves with
    | told => exact (watcher_iff hc).mp rfl
  empty := by
    intro i m w hi
    obtain ⟨c, c', hc, hserves⟩ := h.entry hi
    cases hserves with
    | told => exact (waiting_eq hc).symm
  sent := by
    intro i e hi htells
    obtain ⟨c, c', hc, hserves⟩ := h.entry hi
    cases hserves with
    | told => exact ⟨_, rfl⟩
    | _ => exact absurd rfl htells
  alone := by
    intro i w hi w' hforce
    obtain ⟨c, c', hc, hserves⟩ := h.entry hi
    cases hserves with
    | watched => exact nomatch (watcher_iff hc).mpr hforce
  closed := by
    intro i w withdrew hi hforce
    obtain ⟨c, c', hc, hserves⟩ := h.entry hi
    generalize hwho : w.who = who at hserves
    cases hserves with
    | closed => rfl
    | left hleft => exact absurd ⟨hwho, rfl⟩ (hleft w ((watcher_iff hc).mpr hforce))
  withdrew := by
    intro i who fd hi
    obtain ⟨c, c', hc, hserves⟩ := h.entry hi
    cases hserves with
    | @closed _ w => exact ⟨w, (watcher_iff hc).mp rfl, rfl⟩

/-- The counts that `getattr` and `setattr` return are true in every run. -/
theorem counts_shown (K : Transfer.Kernel π) (mem : π → Ptr → UInt8) (errno : π → Errno)
    (as : List (Action π)) :
    Machine.Always (step K) (fun s => CountsShown K.maxmsg K.msgsize s.log)
      (State.init K mem errno) as :=
  (replays_always K mem errno as).mono fun _ h => countsShown h

/-- What each overload of `notify` asks for. -/
structure Asks : Prop where
  none : Call.notifyNone.asks = some .nothing
  int : ∀ number handler value,
    (Call.notify (.ofInt number handler value)).asks = some (.signal number.value (.int value))
  ptr : ∀ number handler value,
    (Call.notify (.ofPtr number handler value)).asks = some (.signal number.value (.ptr value))

theorem asks : Asks where
  none := rfl
  int := fun _ _ _ => rfl
  ptr := fun _ _ _ => rfl

/-- In every run a registration tells one party once. -/
theorem told_once (K : Transfer.Kernel π) (mem : π → Ptr → UInt8) (errno : π → Errno)
    (as : List (Action π)) :
    Asks ∧ Machine.Always (step K) (fun s => ToldOnce s.log) (State.init K mem errno) as :=
  ⟨asks, (replays_always K mem errno as).mono fun _ h => toldOnce h⟩

end Desk

end Service
