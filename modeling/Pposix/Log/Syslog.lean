-- SUMMARY: `syslog.hpp` and `syslog.cpp`: sets of priorities, the process's log mask, and messages.
import Pposix.Base.Masks
import Pposix.Os.Syscall

/-!
# The system log

A `syslog_priority_set` stores the `int` that goes to `::setlogmask`. The function
`setlogmask` passes it on and makes a set of the `int` that comes back.
-/

/-- `syslog_priority`, with the values that POSIX systems share. -/
inductive SyslogPriority where
  | emergency | alert | critical | error | warning | notice | info | debug
  deriving DecidableEq, Repr

def SyslogPriority.underlying : SyslogPriority → Nat
  | .emergency => 0
  | .alert => 1
  | .critical => 2
  | .error => 3
  | .warning => 4
  | .notice => 5
  | .info => 6
  | .debug => 7

/-- `LOG_MASK`. -/
def logMask (pri : Nat) : Word := 1 <<< pri

structure SyslogPrioritySet where
  priorityMask : Word := 0
  deriving DecidableEq, Repr

namespace SyslogPrioritySet

def set (this : SyslogPrioritySet) (priority : SyslogPriority) : SyslogPrioritySet :=
  ⟨this.priorityMask ||| logMask priority.underlying⟩

/-- `syslog_priority_set(std::initializer_list<syslog_priority>)`. -/
def ofList (priorities : List SyslogPriority) : SyslogPrioritySet := priorities.foldl set {}

def test (this : SyslogPrioritySet) (priority : SyslogPriority) : Bool :=
  this.priorityMask &&& logMask priority.underlying != 0

/-- The private constructor from an `int`. -/
def ofMask (mask : Int) : SyslogPrioritySet := ⟨BitVec.ofInt 32 mask⟩

def toMask (this : SyslogPrioritySet) : Word := this.priorityMask

end SyslogPrioritySet

def setlogmask (priorities : SyslogPrioritySet) : Sys SyslogPrioritySet := do
  let mask ← syscall (.setlogmask priorities.toMask)
  return .ofMask mask.ret

/-! ## Messages -/

/-- `syslog_facility`. -/
inductive SyslogFacility where
  | kernel | user | mail | news | uucp | daemon | auth | cron | printer
  | local0 | local1 | local2 | local3 | local4 | local5 | local6 | local7
  deriving DecidableEq, Repr

def SyslogFacility.underlying : SyslogFacility → Word
  | .kernel => 0
  | .user => 8
  | .mail => 16
  | .daemon => 24
  | .auth => 32
  | .printer => 48
  | .news => 56
  | .uucp => 64
  | .cron => 72
  | .local0 => 128
  | .local1 => 136
  | .local2 => 144
  | .local3 => 152
  | .local4 => 160
  | .local5 => 168
  | .local6 => 176
  | .local7 => 184

/-- `syslog_option`: a constant, or several that are joined. -/
structure SyslogOption where
  underlying : Word
  deriving DecidableEq, Repr

namespace SyslogOption

def logPid : SyslogOption := ⟨1⟩

def logToConsole : SyslogOption := ⟨2⟩

def openOnFirstLog : SyslogOption := ⟨4⟩

def openImmediately : SyslogOption := ⟨8⟩

def noWait : SyslogOption := ⟨16⟩

/-- `operator|`. -/
def or (lhs rhs : SyslogOption) : SyslogOption := ⟨lhs.underlying ||| rhs.underlying⟩

end SyslogOption

/-- A `std::string`, with the address that its `c_str` returns. -/
structure StdString where
  cStr : Ptr
  deriving DecidableEq, Repr

def openlog (identifier : Ptr) (options : SyslogOption) (facility : SyslogFacility) :
    Sys Unit := do
  let _ ← syscall (.openlog identifier options.underlying facility.underlying)

/-- `openlog(const std::string &, options, facility)`. -/
def openlogString (identifier : StdString) (options : SyslogOption)
    (facility : SyslogFacility) : Sys Unit :=
  openlog identifier.cStr options facility

def closelog : Sys Unit := do
  let _ ← syscall .closelog

/-- `syslog(priority, facility, format, args...)`. -/
def syslog (priority : SyslogPriority) (facility : SyslogFacility) (format : Ptr)
    (args : List Vararg) : Sys Unit := do
  let _ ← syscall (.syslog (BitVec.ofNat 32 priority.underlying ||| facility.underlying) format args)

/-! ## Masks as sets -/

/-- Every priority has the bit of its own value. -/
def SyslogPriority.layout : Layout SyslogPriority 32 where
  bit := underlying
  bit_lt p := by cases p <;> decide
  bit_injective p q := by cases p <;> cases q <;> decide

theorem logMask_eq_single (p : SyslogPriority) :
    logMask p.underlying = SyslogPriority.layout.single p :=
  (BitVec.twoPow_eq 32 p.underlying).symm

namespace SyslogPrioritySet

variable {this : SyslogPrioritySet} {p : SyslogPriority}

/-- The priorities that `test` finds. -/
def toSet (this : SyslogPrioritySet) : Set SyslogPriority := {p | this.test p = true}

theorem toSet_eq (this : SyslogPrioritySet) :
    this.toSet = SyslogPriority.layout.denote this.priorityMask := by
  ext p
  rw [toSet, Set.mem_ofPred_eq, test, bne_iff_ne, logMask_eq_single]
  exact Layout.and_single_ne_zero

/-- The mask of a set that is built by calls of `set`. -/
theorem priorityMask_foldl_set (this : SyslogPrioritySet) (ps : List SyslogPriority) :
    (ps.foldl set this).priorityMask =
      ps.foldl (fun m p => m ||| SyslogPriority.layout.single p) this.priorityMask := by
  simp only [← logMask_eq_single]
  exact (List.foldl_hom priorityMask fun _ _ => rfl).symm

/-- The calls put their priorities in, and nothing else. -/
theorem toSet_foldl_set (this : SyslogPrioritySet) (ps : List SyslogPriority) :
    (ps.foldl set this).toSet = this.toSet ∪ {p | p ∈ ps} := by
  rw [toSet_eq, toSet_eq, priorityMask_foldl_set, Layout.denote_foldl_or]
  simp only [Layout.denote_single, Set.mem_singleton_iff, exists_eq_right']

theorem toSet_ofList (ps : List SyslogPriority) : (ofList ps).toSet = {p | p ∈ ps} := by
  have hempty : toSet {} = ∅ := by rw [toSet_eq, Layout.denote_zero]
  rw [ofList, toSet_foldl_set, hempty, Set.empty_union]

/-- A set that is built by calls of `set` alone has an empty mask only if it is empty. -/
theorem priorityMask_ofList_eq_zero (ps : List SyslogPriority) :
    (ofList ps).priorityMask = 0 ↔ ps = [] := by
  have hnamed : SyslogPriority.layout.Named (ofList ps).priorityMask := by
    rw [ofList, priorityMask_foldl_set]
    exact Layout.named_zero.foldl_or fun p _ => Layout.named_single p
  rw [hnamed.eq_iff Layout.named_zero, ← toSet_eq, toSet_ofList, Layout.denote_zero,
    Set.eq_empty_iff_forall_notMem]
  exact List.eq_nil_iff_forall_not_mem.symm

end SyslogPrioritySet
