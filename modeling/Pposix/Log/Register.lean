-- SUMMARY: The log mask of the process as a register that holds a set: what `setlogmask` puts in and gets back.
import Mathlib.Data.List.Chain
import Pposix.Base.Machine
import Pposix.Log.Syslog

/-!
# The log mask as a register

POSIX: `::setlogmask` returns the mask before the call, and a mask of zero leaves it as
it is. The empty set has this mask. So a register of sets is what the calls make of it
only as long as no empty set is passed.
-/

namespace LogMask

/-! ## The machine -/

/-- `::setlogmask`. -/
def answer (err : Errno) : Prog.Env Word Syscall Response := fun register c =>
  match c with
  | .setlogmask maskpri =>
    some (⟨register.toInt, err, .nothing⟩, if maskpri ≠ 0 then maskpri else register)
  | _ => none

/-- The priorities whose messages are logged. -/
def enabled (register : Word) : Set SyslogPriority :=
  {p | register &&& logMask p.underlying ≠ 0}

structure Entry where
  given : SyslogPrioritySet
  returned : SyslogPrioritySet
  /-- The register before the call; no code reads it. -/
  before : Word

structure State where
  register : Word
  errno : Errno
  /-- The calls, the newest first. -/
  log : List Entry

def State.init (register : Word) (errno : Errno) : State := ⟨register, errno, []⟩

/-- A call of `setlogmask`, with any set, and what it leaves in `errno`. -/
structure Action where
  priorities : SyslogPrioritySet
  err : Errno := 0

def step (s : State) (a : Action) : Option State := do
  let ((returned, err), register) ←
    Sys.exec (answer a.err) s.errno s.register (setlogmask a.priorities)
  return {
    register := register
    errno := err
    log := ⟨a.priorities, returned, s.register⟩ :: s.log }

/-! ## What is expected -/

structure Kept (s : State) : Prop where
  /-- The priorities of the last set are enabled, and no others. -/
  filter : ∀ e ∈ s.log.head?, enabled s.register = e.given.toSet
  /-- Each call returned the set of the call before it. -/
  returned : s.log.IsChain fun e previous => e.returned.toSet = previous.given.toSet
  /-- Passing back a set that an earlier call returned restores the filter before that call. -/
  restored : ∀ e ∈ s.log.head?, ∀ saved ∈ s.log.tail, e.given = saved.returned →
    enabled s.register = enabled saved.before

/-- The call has an effect: the mask of its set is not zero, or there is nothing to disable. -/
def Effective (s : State) (a : Action) : Prop :=
  a.priorities.priorityMask ≠ 0 ∨ enabled s.register = ∅

structure Inv (s : State) : Prop extends Kept s where
  found : ∀ e ∈ s.log, e.returned.priorityMask = e.before

/-! ## Steps -/

theorem enabled_eq (register : Word) :
    enabled register = SyslogPrioritySet.toSet ⟨register⟩ := by
  ext p
  exact bne_iff_ne.symm

/-- A call puts its mask into the register unless it is zero, and returns the old one. -/
theorem step_eq (s : State) (a : Action) :
    step s a = some {
      register := if a.priorities.priorityMask ≠ 0 then a.priorities.priorityMask else s.register
      errno := a.err
      log := ⟨a.priorities, ⟨s.register⟩, s.register⟩ :: s.log } := by
  have hback : SyslogPrioritySet.ofMask s.register.toInt = ⟨s.register⟩ := by
    rw [SyslogPrioritySet.ofMask, BitVec.ofInt_toInt]
  rw [← hback]
  rfl

/-- After a call exactly the priorities of its set are enabled when it has an effect. -/
theorem enabled_step_iff (s : State) (a : Action) :
    enabled (if a.priorities.priorityMask ≠ 0 then a.priorities.priorityMask else s.register) =
      a.priorities.toSet ↔ Effective s a := by
  unfold Effective
  split <;> rename_i hmask
  · exact iff_of_true (enabled_eq _) (.inl hmask)
  · have hempty : a.priorities.toSet = ∅ := by
      rw [SyslogPrioritySet.toSet_eq, not_not.mp hmask, Layout.denote_zero]
    rw [hempty, or_iff_right hmask]

theorem inv_init (register : Word) (errno : Errno) : Inv (State.init register errno) where
  filter := by simp [State.init]
  returned := List.isChain_nil
  restored := by simp [State.init]
  found := by simp [State.init]

theorem step_inv {s s' : State} {a : Action} (hs : Inv s) (ha : Effective s a)
    (h : step s a = some s') : Inv s' := by
  rw [step_eq] at h
  cases h
  have henabled := (enabled_step_iff s a).mpr ha
  refine ⟨⟨?_, ?_, ?_⟩, ?_⟩
  · rintro e ⟨⟩
    exact henabled
  · apply List.isChain_cons.mpr
    refine ⟨fun previous hprevious => ?_, hs.returned⟩
    rw [← hs.filter previous hprevious, enabled_eq]
  · rintro e ⟨⟩ saved hsaved hgiven
    have hfound : saved.returned = ⟨saved.before⟩ :=
      congrArg SyslogPrioritySet.mk (hs.found saved hsaved)
    rw [henabled, enabled_eq saved.before, ← hfound]
    exact congrArg _ hgiven
  · intro e he
    rcases List.mem_cons.mp he with rfl | hold
    · rfl
    · exact hs.found e hold

theorem effective_of_kept {s s' : State} {a : Action} (h : step s a = some s') (hs' : Kept s') :
    Effective s a := by
  rw [step_eq] at h
  cases h
  exact (enabled_step_iff s a).mp (hs'.filter _ rfl)

/-! ## Runs -/

/-- A set has the priorities that were listed or set. The log mask is a register of sets in
every state of exactly those runs whose calls all have an effect. -/
theorem register_iff (register : Word) (errno : Errno) (as : List Action) :
    (∀ (listed later : List SyslogPriority) (p : SyslogPriority),
      (later.foldl SyslogPrioritySet.set (.ofList listed)).test p = true ↔
        p ∈ listed ∨ p ∈ later) ∧
    (Machine.Always step Kept (State.init register errno) as ↔
      Machine.Guarded step Effective (State.init register errno) as) := by
  constructor
  · intro listed later p
    have hset := SyslogPrioritySet.toSet_foldl_set (.ofList listed) later
    rw [SyslogPrioritySet.toSet_ofList] at hset
    exact Set.ext_iff.mp hset p
  · exact Machine.always_iff_guarded Inv.toKept step_inv (fun _ h hs' => effective_of_kept h hs')
      (inv_init register errno)

/-- The set with `error` alone is passed and then the empty set, and errors stay enabled. -/
theorem empty_set_disables_nothing :
    ¬ Machine.Always step Kept (State.init 255 0) [⟨.ofList [.error], 0⟩, ⟨{}, 0⟩] := by
  intro h
  have hlast := ((h.2 _ (step_eq ..)).2 _ (step_eq ..)).filter _ rfl
  have herror : SyslogPriority.error ∈ SyslogPrioritySet.toSet {} := by
    rw [← hlast]
    exact (by decide : (8 : Word) &&& logMask 3 ≠ 0)
  exact Bool.false_ne_true herror

end LogMask
