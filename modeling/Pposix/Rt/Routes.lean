-- SUMMARY: Between whom messages go: from a writer to a reader that opened the same queue under the same name.
import Pposix.Rt.Exchange
import Pposix.Rt.Order

/-!
# Routes

The log alone says which queue a name stands for and what a descriptor was opened on. A
message goes from one descriptor to another one that was opened on the same queue, which
has one name only, and each queue delivers in order.
-/

namespace Exchange

open Transfer (Msg)

variable {π : Type}

/-! ## What a log says -/

/-- The name was given to the queue, and neither unlinked nor given to another one since. -/
def Named (log : List (Entry π)) (name : String) (i : Nat) : Prop :=
  InForce (· = .created name i) (fun e => e = .unlinked name ∨ ∃ j, e = .created name j) log

/-- The entry ends what the descriptor was opened on: it is closed, or opened once more. -/
def Entry.Ends (who : π) (fd : Int) (e : Entry π) : Prop :=
  e = .closed who fd ∨ ∃ name mode i, e = .opened who fd name mode i

/-- The descriptor was opened on the queue, under this name and with this mode. -/
def Connected (log : List (Entry π)) (who : π) (fd : Int) (name : String) (mode : MqMode)
    (i : Nat) : Prop :=
  InForce (· = .opened who fd name mode i) (Entry.Ends who fd) log

/-- What was put into a queue and got out of it. -/
def Entry.event (i : Nat) : Entry π → Option (Delivery.Event Msg)
  | .message _ _ e j => if j = i then e.event else none
  | _ => none

def events (i : Nat) (log : List (Entry π)) : List (Delivery.Event Msg) :=
  log.filterMap (Entry.event i)

variable [DecidableEq π] {log : List (Entry π)} {b : Board π}

/-! ## What the board holds -/

/-- A name stands for the queue that it was given to last. -/
theorem named_iff (h : Replays Passes Board.empty log b) {name : String} {i : Nat} :
    b.named name = some i ↔ Named log name i := by
  induction h with
  | nil => exact iff_of_false nofun InForce.not_nil
  | snoc hlog hpasses ih =>
    unfold Named at ih ⊢
    rw [InForce.append_iff, ← ih]
    cases hpasses with
    | @created name' j =>
      by_cases hname : name = name'
      · subst hname
        simp [Board.name, Board.hold, eq_comm]
      · simp [Board.name, Board.hold, Function.update_of_ne hname, Ne.symm hname]
    | @unlinked name' =>
      by_cases hname : name = name'
      · subst hname
        simp [Board.name]
      · simp [Board.name, Function.update_of_ne hname, Ne.symm hname]
    | _ => simp [Board.link, Board.hold]

/-- The name was given to the queue at some time. -/
theorem created_of_named (h : Replays Passes Board.empty log b) {name : String} {i : Nat}
    (hnamed : b.named name = some i) : .created name i ∈ log := by
  obtain ⟨e, he, rfl⟩ := ((named_iff h).mp hnamed).exists_mem
  exact he

/-- A descriptor is linked to the queue that it was opened on. -/
theorem connected_of_linked (h : Replays Passes Board.empty log b) {who : π} {fd : Int} {i : Nat}
    {mode : MqMode} (hlinked : b.linked who fd = some (i, mode)) :
    ∃ name, Connected log who fd name mode i ∧ .created name i ∈ log := by
  induction h with
  | nil => cases hlinked
  | @snoc log b b' e hlog hpasses ih =>
    -- What is linked as before stays connected unless the entry ends that.
    have hkeep : b.linked who fd = some (i, mode) → ¬ e.Ends who fd →
        ∃ name, Connected (log ++ [e]) who fd name mode i ∧ .created name i ∈ log ++ [e] := by
      intro hold hends
      obtain ⟨name, hconnected, hcreated⟩ := ih hold
      exact ⟨name, hconnected.append hends, List.mem_append_left _ hcreated⟩
    cases hpasses with
    | @opened who' fd' name' mode' j hnamed =>
      simp only [Board.link] at hlinked
      split at hlinked
      · rename_i hsame
        obtain ⟨rfl, rfl⟩ := hsame
        cases hlinked
        exact ⟨name', InForce.new log rfl, List.mem_append_left _ (created_of_named hlog hnamed)⟩
      · rename_i hother
        refine hkeep hlinked fun hends => hother ?_
        simpa [Entry.Ends, eq_comm] using hends
    | @closed who' fd' =>
      simp only [Board.link] at hlinked
      split at hlinked
      · cases hlinked
      · rename_i hother
        refine hkeep hlinked fun hends => hother ?_
        simpa [Entry.Ends, eq_comm] using hends
    | _ => exact hkeep hlinked (by simp [Entry.Ends])

/-! ## Queues -/

theorem Passes.held {b' : Board π} {e : Entry π} (h : Passes b e b') {i : Nat}
    (hi : (b.held i).isSome) : (b'.held i).isSome := by
  have hkeep : ∀ (c : Board π) j q, (c.held i).isSome → ((c.hold j q).held i).isSome := by
    intro c j q hc
    by_cases hj : i = j
    · subst hj
      simp [Board.hold]
    · simpa [Board.hold, Function.update_of_ne hj] using hc
  cases h with
  | created _ _ | sent _ _ _ | received _ _ _ _ => exact hkeep _ _ _ hi
  | _ => exact hi

theorem held_of_created (h : Replays Passes Board.empty log b) {name : String} {i : Nat}
    (hcreated : .created name i ∈ log) : (b.held i).isSome := by
  induction h with
  | nil => cases hcreated
  | snoc hlog hpasses ih =>
    cases List.mem_append.mp hcreated with
    | inl hold => exact hpasses.held (ih hold)
    | inr hnew =>
      cases List.mem_singleton.mp hnew
      cases hpasses
      simp [Board.hold]

/-- A queue is made once, so it has one name only. -/
theorem created_unique (h : Replays Passes Board.empty log b) {name name' : String} {i : Nat}
    (hcreated : .created name i ∈ log) (hcreated' : .created name' i ∈ log) : name = name' := by
  induction h with
  | nil => cases hcreated
  | @snoc log b b' e hlog hpasses ih =>
    have hfresh : ∀ {x y}, e = .created x i → .created y i ∉ log := by
      rintro x y rfl hold
      cases hpasses with
      | created _ hnone =>
        have hsome := held_of_created hlog hold
        rw [hnone] at hsome
        cases hsome
    cases List.mem_append.mp hcreated with
    | inl hold =>
      cases List.mem_append.mp hcreated' with
      | inl hold' => exact ih hold hold'
      | inr hnew => exact absurd hold (hfresh (List.mem_singleton.mp hnew).symm)
    | inr hnew =>
      cases List.mem_append.mp hcreated' with
      | inl hold' => exact absurd hold' (hfresh (List.mem_singleton.mp hnew).symm)
      | inr hnew' =>
        cases (List.mem_singleton.mp hnew).trans (List.mem_singleton.mp hnew').symm
        rfl

omit [DecidableEq π] in
theorem events_append (i : Nat) (log : List (Entry π)) (e : Entry π) :
    events i (log ++ [e]) = events i log ++ (e.event i).toList := by
  simp only [events, List.filterMap_append]
  cases he : e.event i <;> simp [he]

/-- Every queue delivers what was put into it, in order. -/
theorem ordered (h : Replays Passes Board.empty log b) (i : Nat) :
    Delivery.Ordered Msg.rank (events i log) ((b.held i).getD []) := by
  induction h with
  | nil => exact Delivery.ordered_nil
  | @snoc log b b' e hlog hpasses ih =>
    rw [events_append]
    cases hpasses with
    | @created name j _ hnone =>
      have hsame : (((b.name name (some j)).hold j []).held i).getD [] = (b.held i).getD [] := by
        by_cases hi : i = j
        · subst hi
          simp [Board.hold, hnone]
        · simp [Board.hold, Board.name, Function.update_of_ne hi]
      simpa [Entry.event, hsame] using ih
    | @sent who fd j mode q m _ _ hheld =>
      by_cases hi : j = i
      · subst hi
        rw [hheld] at ih
        have hput := Delivery.Ordered.insert ih m
        rw [← Transfer.enqueue_eq_insert] at hput
        simpa [Entry.event, Transfer.Entry.event, Board.hold] using hput
      · simpa [Entry.event, hi, Board.hold, Function.update_of_ne (Ne.symm hi)] using ih
    | @received who fd j mode q buffer message bytes _ _ hheld =>
      by_cases hi : j = i
      · subst hi
        rw [hheld] at ih
        simpa [Entry.event, Transfer.Entry.event, Board.hold] using Delivery.Ordered.got ih
      · simpa [Entry.event, hi, Board.hold, Function.update_of_ne (Ne.symm hi)] using ih
    | _ => simpa [Entry.event, Transfer.Entry.event, Board.link, Board.name] using ih

/-- What a queue holds was sent into it. -/
theorem sent_of_held (h : Replays Passes Board.empty log b) {i : Nat} {q : List Msg} {m : Msg}
    (hq : b.held i = some q) (hm : m ∈ q) :
    ∃ (k : Nat) (who : π) (fd : Int), log[k]? = some (.message who fd (.sent m) i) := by
  have hordered := ordered h i
  rw [hq] at hordered
  obtain ⟨e, he, hevent⟩ := List.mem_filterMap.mp (hordered.exact.put_mem hm)
  obtain ⟨k, hk⟩ := List.getElem?_of_mem he
  cases e with
  | message who fd e j =>
    simp only [Entry.event] at hevent
    split at hevent
    · rename_i hj
      subst hj
      cases e with
      | sent m' =>
        cases hevent
        exact ⟨k, who, fd, hk⟩
      | _ => cases hevent
    · cases hevent
  | _ => cases hevent

/-! ## Runs -/

/-- A message goes from a writer to a reader of one queue, under its one name. -/
structure Routed (s : State π) : Prop where
  /-- An opening reaches the queue that its name stands for. -/
  opened : ∀ j who fd name mode i, s.log[j]? = some (.opened who fd name mode i) →
    Named (s.log.take j) name i
  /-- A message is sent through a descriptor that was opened for writing. -/
  sent : ∀ j who fd m i, s.log[j]? = some (.message who fd (.sent m) i) →
    ∃ name mode, Connected (s.log.take j) who fd name mode i ∧ mode.writes
  /-- It is received through one that was opened for reading, into the buffer that was given,
  and was sent through one that was opened on the same queue under the same name. -/
  received : ∀ j who fd buffer message bytes i,
    s.log[j]? = some (.message who fd (.received buffer message bytes) i) →
    ∃ name mode, Connected (s.log.take j) who fd name mode i ∧ mode.reads ∧
      View.Within 1 message.messageBytes buffer ∧
      ∃ k < j, ∃ who' fd' mode',
        s.log[k]? = some (.message who' fd' (.sent ⟨bytes, message.priority.value⟩) i) ∧
        Connected (s.log.take k) who' fd' name mode' i
  /-- Each queue delivers each message once, by priority and then by age, and holds what was
  not received. -/
  ordered : ∀ i, Delivery.Ordered Msg.rank (events i s.log)
    (((s.hall.queues i).map Queue.messages).getD [])

theorem routed {s : State π} (h : Replays Passes Board.empty s.log s.hall.abs) : Routed s where
  opened := by
    intro j who fd name mode i hj
    obtain ⟨c, d, hc, hpasses⟩ := h.entry hj
    cases hpasses with
    | opened hnamed => exact (named_iff hc).mp hnamed
  sent := by
    intro j who fd m i hj
    obtain ⟨c, d, hc, hpasses⟩ := h.entry hj
    cases hpasses with
    | sent hlinked hwrites =>
      obtain ⟨name, hconnected, -⟩ := connected_of_linked hc hlinked
      exact ⟨name, _, hconnected, hwrites⟩
  received := by
    intro j who fd buffer message bytes i hj
    obtain ⟨c, d, hc, hpasses⟩ := h.entry hj
    cases hpasses with
    | received hlinked hreads hheld hinside =>
      obtain ⟨name, hconnected, hcreated⟩ := connected_of_linked hc hlinked
      refine ⟨name, _, hconnected, hreads, hinside, ?_⟩
      obtain ⟨k, who', fd', hk⟩ := sent_of_held hc hheld List.mem_cons_self
      rw [List.getElem?_take] at hk
      split at hk
      · rename_i hlt
        obtain ⟨c', d', hc', hpasses'⟩ := h.entry hk
        cases hpasses' with
        | sent hlinked' _ _ =>
          obtain ⟨name', hconnected', hcreated'⟩ := connected_of_linked hc' hlinked'
          have hname : name' = name := created_unique h (List.mem_of_mem_take hcreated')
            (List.mem_of_mem_take hcreated)
          exact ⟨k, hlt, who', fd', _, hk, hname ▸ hconnected'⟩
      · cases hk
  ordered := Exchange.ordered h

/-- In every run messages go only between descriptors that were opened, for writing and for
reading, on one queue under its one name, and each queue delivers in order. -/
theorem messages_routed_by_name (prioMax : Nat) (mem : π → Ptr → UInt8) (errno : π → Errno)
    (as : List (Action π)) :
    Machine.Always (step prioMax) Routed (State.init mem errno) as :=
  (replays_always prioMax mem errno as).mono fun _ h => routed h

end Exchange
