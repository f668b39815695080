-- SUMMARY: The interest lists of epoll instances as their users see them, and how each entry of a log changes them.
import Pposix.Base.Masks
import Pposix.Base.Replay
import Pposix.Lnx.Epoll
import Mathlib.Logic.Function.Basic

/-!
# Interest lists

An instance keeps, for each descriptor that was added, the conditions that its user asked
for and the data to give back. What is added is the open file description, under the
number that was given. It stays on the list until it is removed or until no descriptor
refers to it: to close the number is not enough while a duplicate is open. The instance is
a description, too, and its list goes with it.
-/

/-- Every flag has the bit of its own value. -/
def EpollEventFlag.layout : Layout EpollEventFlag 32 where
  bit
    | .readAvailable => 0
    | .fdException => 1
    | .writeAvailable => 2
    | .fdError => 3
    | .fdHup => 4
    | .socketClosed => 13
    | .exclusive => 28
    | .wakeup => 29
    | .oneShot => 30
    | .edgeTriggered => 31
  bit_lt c := by cases c <;> decide
  bit_injective c c' := by cases c <;> cases c' <;> decide

theorem EpollEventFlag.underlying_eq_single (c : EpollEventFlag) :
    c.underlying = layout.single c := by
  cases c <;> rfl

namespace Interest

open EpollEventFlag

/-! ## Descriptors -/

/-- A number in the table of a holder. -/
abbrev Desc (η : Type) := η × Int

/-- A descriptor and the open file description that it refers to. -/
structure Ref (η : Type) where
  desc : Desc η
  file : Nat

/-- A place on a list: the number that was given, and the description. -/
structure Key where
  fd : Int
  file : Nat
  deriving DecidableEq

def Ref.key {η : Type} (r : Ref η) : Key := ⟨r.desc.2, r.file⟩

/-! ## Lists -/

/-- What the instances hold for what is on their lists. -/
abbrev Lists (α : Type) := Nat → Key → Option α

namespace Lists

variable {α β : Type}

def put (l : Lists α) (inst : Nat) (key : Key) (x : Option α) : Lists α := fun i k =>
  if i = inst ∧ k = key then x else l i k

/-- The instance reports these. -/
def fire (f : α → α) (l : Lists α) (inst : Nat) (keys : List Key) : Lists α := fun i k =>
  if i = inst ∧ k ∈ keys then (l i k).map f else l i k

/-- A description goes: from every list, and with its own list if it is an instance. -/
def drop (l : Lists α) (file : Nat) : Lists α := fun i k =>
  if i = file ∨ k.file = file then none else l i k

def map (f : α → β) (l : Lists α) : Lists β := fun i k => (l i k).map f

variable (f : α → β) (l : Lists α)

theorem map_put (inst : Nat) (key : Key) (x : Option α) :
    (l.put inst key x).map f = (l.map f).put inst key (x.map f) := by
  funext i k
  simp only [map, put]
  split <;> rfl

theorem map_fire {g : α → α} {g' : β → β} (hg : ∀ x, f (g x) = g' (f x)) (inst : Nat)
    (keys : List Key) : (l.fire g inst keys).map f = (l.map f).fire g' inst keys := by
  funext i k
  simp only [map, fire]
  split
  · simp only [Option.map_map, Function.comp_def, hg]
  · rfl

theorem map_drop (file : Nat) : (l.drop file).map f = (l.map f).drop file := by
  funext i k
  simp only [map, drop]
  split <;> rfl

end Lists

/-! ## Watches -/

/-- The flags that say how to report, and that are never reported. -/
def modes : Set EpollEventFlag := {.exclusive, .wakeup, .oneShot, .edgeTriggered}

/-- What was asked for a place, and whether it is still to be reported. -/
structure Watch where
  asked : Set EpollEventFlag
  data : BitVec 64
  armed : Bool

/-- Errors and hang-ups need not be asked for. -/
def Watch.of (event : EpollEvent) : Watch where
  asked := layout.denote event.events ∪ {.fdError, .fdHup}
  data := event.data
  armed := true

/-- A watch with `one_shot` that was reported waits for a `modify`. -/
noncomputable def Watch.fired (w : Watch) : Watch :=
  open Classical in
  if .oneShot ∈ w.asked then { w with asked := w.asked ∩ modes, armed := false } else w

/-- An event that was written, and the place that it is for, which no code reads. -/
structure Report where
  key : Key
  event : EpollEvent

namespace Report

/-- The flags that are set in the event. -/
def seen (r : Report) : Set EpollEventFlag := {c | r.event.hasFlag c = true}

/-- What the accessors of the event find. There is none for the flags that are modes. -/
def finds (r : Report) : EpollEventFlag → Bool
  | .readAvailable => r.event.readAvailable
  | .writeAvailable => r.event.writeAvailable
  | .socketClosed => r.event.socketClosed
  | .fdException => r.event.fdException
  | .fdError => r.event.fdError
  | .fdHup => r.event.fdHup
  | .edgeTriggered | .oneShot | .wakeup | .exclusive => false

/-- The event shows conditions that were asked for, and the data. -/
structure Shows (r : Report) (w : Watch) : Prop where
  armed : w.armed = true
  data : r.event.data = w.data
  seen : r.seen ⊆ w.asked \ modes

/-- The accessors find every flag that is not a mode. -/
theorem finds_eq {r : Report} {c : EpollEventFlag} (h : c ∉ modes) :
    r.finds c = r.event.hasFlag c := by
  cases c <;> first | rfl | exact absurd (by simp [modes]) h

/-- An event without modes is what the accessors find. -/
theorem finds_iff {r : Report} (h : ∀ c ∈ r.seen, c ∉ modes) (c : EpollEventFlag) :
    r.finds c = true ↔ c ∈ r.seen := by
  by_cases hmode : c ∈ modes
  · have hfinds : r.finds c = false := by
      rcases hmode with rfl | rfl | rfl | rfl <;> rfl
    rw [hfinds]
    exact iff_of_false Bool.false_ne_true fun hseen => h c hseen hmode
  · rw [finds_eq hmode]
    exact Iff.rfl

end Report

/-! ## Entries -/

section Promises

variable {η : Type}

/-- What a call or other code did. The descriptions and what went with a close are for the
statements: no code reads them. -/
inductive Entry (η : Type) where
  /-- A new description, which may be an instance. -/
  | opened (r : Ref η) (epoll : Bool)
  /-- Another descriptor `d` of the description, as `dup` and `fork` make it. -/
  | shared (r : Ref η) (d : Desc η)
  | closed (d : Desc η) (gone : Option Nat)
  /-- The destructor of an object closed nothing. -/
  | unclosed (d : Desc η)
  | added (ep r : Ref η) (event : EpollEvent)
  | modified (ep r : Ref η) (event : EpollEvent)
  | removed (ep r : Ref η)
  /-- A wait with a span for `room` events wrote these. -/
  | reported (ep : Ref η) (room : Nat) (reports : List Report)
  | failed (ec : ErrorCode)

/-- The descriptors, which descriptions are instances, and the watches on their lists. -/
structure Desk (η : Type) where
  refs : Desc η → Option Nat
  epolls : Nat → Bool
  watches : Lists Watch

namespace Desk

/-- The descriptor refers to the description. -/
def Finds (s : Desk η) (r : Ref η) : Prop := s.refs r.desc = some r.file

/-- The description goes with the descriptor: no other one refers to it. -/
def Last (s : Desk η) (d : Desc η) (file : Nat) : Prop :=
  s.refs d = some file ∧ ∀ d', d' ≠ d → s.refs d' ≠ some file

/-- A call finds an instance and another description. -/
structure Reaches (s : Desk η) (ep r : Ref η) : Prop where
  inst : s.Finds ep
  epoll : s.epolls ep.file = true
  file : s.Finds r
  other : ep.file ≠ r.file

variable [DecidableEq η]

def refer (s : Desk η) (r : Ref η) : Desk η :=
  { s with refs := Function.update s.refs r.desc (some r.file) }

def attach (s : Desk η) (r : Ref η) (epoll : Bool) : Desk η :=
  { s.refer r with epolls := Function.update s.epolls r.file epoll }

/-- A descriptor is closed, and a description goes with it. -/
def close (s : Desk η) (d : Desc η) : Option Nat → Desk η
  | none => { s with refs := Function.update s.refs d none }
  | some file => {
      refs := Function.update s.refs d none
      epolls := Function.update s.epolls file false
      watches := s.watches.drop file }

end Desk

variable [DecidableEq η]

/-- What an entry does. -/
inductive Serves (s : Desk η) : Entry η → Desk η → Prop where
  | opened {r : Ref η} {epoll : Bool} : s.refs r.desc = none → (∀ d, s.refs d ≠ some r.file) →
      Serves s (.opened r epoll) (s.attach r epoll)
  | shared {r : Ref η} {d : Desc η} : s.Finds r → s.refs d = none →
      Serves s (.shared r d) (s.refer ⟨d, r.file⟩)
  | closed {d : Desc η} {gone : Option Nat} : (s.refs d).isSome →
      (∀ file, gone = some file ↔ s.Last d file) → Serves s (.closed d gone) (s.close d gone)
  | unclosed {d : Desc η} : Serves s (.unclosed d) s
  | added {ep r : Ref η} {event : EpollEvent} : s.Reaches ep r →
      s.watches ep.file r.key = none →
      Serves s (.added ep r event)
        { s with watches := s.watches.put ep.file r.key (some (.of event)) }
  | modified {ep r : Ref η} {event : EpollEvent} : s.Reaches ep r →
      (s.watches ep.file r.key).isSome →
      Serves s (.modified ep r event)
        { s with watches := s.watches.put ep.file r.key (some (.of event)) }
  | removed {ep r : Ref η} : s.Reaches ep r → (s.watches ep.file r.key).isSome →
      Serves s (.removed ep r) { s with watches := s.watches.put ep.file r.key none }
  | reported {ep : Ref η} {room : Nat} {reports : List Report} :
      s.Finds ep → s.epolls ep.file = true → reports.length ≤ room →
      (reports.map Report.key).Nodup →
      (∀ r ∈ reports, ∃ w, s.watches ep.file r.key = some w ∧ r.Shows w) →
      Serves s (.reported ep room reports)
        { s with watches := s.watches.fire Watch.fired ep.file (reports.map Report.key) }
  | failed {ec : ErrorCode} : Serves s (.failed ec) s

end Promises

end Interest
