-- SUMMARY: The C-level layer against a table of open descriptors: which runs lose a descriptor.
import Pposix.Base.Machine
import Pposix.Files.Fcntl
import Mathlib.Data.Finset.Erase
import Mathlib.Data.Finset.Insert

/-!
# Descriptors that the C layer hands out

`open` returns the number that the kernel allocated. `fcntl` returns an error code only,
so the number that a duplicating command allocated is returned to nobody.
-/

/-! ## The kernel -/

/-- The command is `F_DUPFD` or `F_DUPFD_CLOEXEC`. -/
def FcntlCmd.duplicates (cmd : FcntlCmd) : Bool := cmd = dupfd || cmd = dupfdCloexec

/-- The call allocates a descriptor when it succeeds. -/
def Syscall.allocates : Syscall → Bool
  | .open_ .. => true
  | .fcntl _ cmd _ => FcntlCmd.duplicates ⟨cmd⟩
  | _ => false

/-- The open descriptors after this answer to this call, where the kernel may give it. A
new descriptor gets a number that is not in use, and a call that fails, a close too, leaves
the table as it is. -/
def answerFd (table : Finset Int) (c : Syscall) (r : Response) : Option (Finset Int) :=
  if r.Posix then
    if r.ret = -1 then some table
    else if c.allocates then if r.ret ∉ table then some (insert r.ret table) else none
    else
      match c.closedFd with
      | some fd => if fd ∈ table then some (table.erase fd) else none
      | none => some table
  else none

/-- The kernel that gives the answer `r`. -/
def fdEnv (r : Response) : Prog.Env (Finset Int) Syscall Response := fun table c =>
  (answerFd table c r).map fun table' => (r, table')

/-! ## Calls of the layer -/

/-- `capi::open`, `capi::fcntl` with their overloads, and `close_fd`. -/
inductive CapiCall where
  | open_ (path : String) (mode flags : Word)
  | openPermission (path : String) (mode flags permission : Word)
  | fcntl (fd : Int) (cmd : FcntlCmd)
  | fcntlInt (fd : Int) (cmd : FcntlCmd) (arg : Int)
  | fcntlPtr (fd : Int) (cmd : FcntlCmd) (arg : Ptr)
  | close (fd : Int)

/-- What the caller gets back. -/
inductive Given where
  | fd (r : Result Int)
  | code (ec : ErrorCode)

namespace CapiCall

def run : CapiCall → Sys Given
  | .open_ path mode flags => do
    return .fd (← Capi.open_ path mode flags)
  | .openPermission path mode flags permission => do
    return .fd (← Capi.openPermission path mode flags permission)
  | .fcntl fd cmd => do
    return .code (← Capi.fcntl fd cmd)
  | .fcntlInt fd cmd arg => do
    return .code (← Capi.fcntlInt fd cmd arg)
  | .fcntlPtr fd cmd arg => do
    return .code (← Capi.fcntlPtr fd cmd arg)
  | .close fd => do
    return .code (← closeFd fd)

def syscall : CapiCall → Syscall
  | .open_ path mode flags => .open_ path (mode ||| flags) none
  | .openPermission path mode flags permission => .open_ path (mode ||| flags) (some permission)
  | .fcntl fd cmd => .fcntl fd cmd.value .none
  | .fcntlInt fd cmd arg => .fcntl fd cmd.value (.int arg)
  | .fcntlPtr fd cmd arg => .fcntl fd cmd.value (.ptr (.memory arg))
  | .close fd => .close fd

def given : CapiCall → Response → Given
  | .open_ .., r | .openPermission .., r => .fd (r.result id)
  | .fcntl .., r | .fcntlInt .., r | .fcntlPtr .., r | .close _, r => .code r.errorCode

theorem run_apply (c : CapiCall) (e : Errno) :
    c.run e = .call c.syscall fun r => .done (c.given r, r.errno) := by
  cases c with
  | open_ path mode flags =>
    exact (Sys.return_apply ..).trans (congrArg (Prog.bind · _) (commonResultMap_apply ..))
  | openPermission path mode flags permission =>
    exact (Sys.return_apply ..).trans (congrArg (Prog.bind · _) (commonResultMap_apply ..))
  | _ => exact (Sys.return_apply ..).trans (congrArg (Prog.bind · _) (commonCall_apply ..))

/-- The descriptors that the caller can reach, after what a call gave back. -/
def account : CapiCall → Given → Finset Int → Finset Int
  | _, .fd (.value fd), known => insert fd known
  | .close fd, .code ec, known => if ec.isError then known else known.erase fd
  | _, _, known => known

/-- A duplicating command. -/
def duplicates : CapiCall → Bool
  | .fcntl _ cmd | .fcntlInt _ cmd _ | .fcntlPtr _ cmd _ => cmd.duplicates
  | .open_ .. | .openPermission .. | .close _ => false

end CapiCall

/-! ## Runs -/

/-- The kernel's table, the descriptors the caller was given and has not closed, and
`errno`. -/
structure Desk where
  table : Finset Int
  known : Finset Int
  errno : Errno

/-- A call, and what the kernel answers. -/
structure CapiAction where
  call : CapiCall
  answer : Response

namespace Desk

/-- Before the first call the caller knows what is open. -/
def init (table : Finset Int) (e : Errno) : Desk := ⟨table, table, e⟩

def step (s : Desk) (a : CapiAction) : Option Desk :=
  (Sys.exec (fdEnv a.answer) s.errno s.table a.call.run).map fun x =>
    ⟨x.2, a.call.account x.1.1 s.known, x.1.2⟩

theorem step_cases {s s' : Desk} {a : CapiAction} (h : s.step a = some s') :
    answerFd s.table a.call.syscall a.answer = some s'.table ∧
      s'.known = a.call.account (a.call.given a.answer) s.known := by
  obtain ⟨x, hx, rfl⟩ := Option.map_eq_some_iff.mp h
  unfold Sys.exec at hx
  rw [CapiCall.run_apply] at hx
  obtain ⟨y, hy, hyx⟩ := Option.bind_eq_some_iff.mp hx
  obtain ⟨table', htable, rfl⟩ := Option.map_eq_some_iff.mp hy
  cases hyx
  exact ⟨htable, rfl⟩

/-- A call that failed changes nothing for anybody. -/
theorem account_of_failure {c : CapiCall} {r : Response} (hposix : r.Posix) (hret : r.ret = -1)
    (known : Finset Int) : c.account (c.given r) known = known := by
  have herr : r.errorCode.isError = true := (r.errorCode_isError hposix).mpr hret
  cases c <;> simp [CapiCall.account, CapiCall.given, Response.result, hret, herr]

/-- What the kernel and the caller make of an answer: they agree, or the kernel allocated
a descriptor that the caller does not learn of. -/
theorem answer_account {c : CapiCall} {r : Response} {table table' : Finset Int}
    (h : answerFd table c.syscall r = some table') :
    if c.duplicates = true ∧ r.ret ≠ -1 then
      r.ret ∉ table ∧ table' = insert r.ret table ∧ c.account (c.given r) table = table
    else table' = c.account (c.given r) table := by
  unfold answerFd at h
  split at h
  · rename_i hposix
    split at h <;> rename_i hret
    · cases h
      rw [if_neg (by simp [hret]), account_of_failure hposix hret]
    · have herr : r.errorCode.isError = false := by
        simpa [hret] using (r.errorCode_isError hposix).not
      cases c with
      | open_ path mode flags | openPermission path mode flags permission =>
        simp only [CapiCall.syscall, Syscall.allocates, if_true, Option.ite_none_right_eq_some,
          Option.some.injEq] at h
        simp [CapiCall.duplicates, CapiCall.account, CapiCall.given, Response.result, hret, ← h.2]
      | fcntl fd cmd | fcntlInt fd cmd arg | fcntlPtr fd cmd arg =>
        simp only [CapiCall.syscall, Syscall.allocates, Syscall.closedFd] at h
        cases hdup : cmd.duplicates with
        | true =>
          simp only [hdup, if_true, Option.ite_none_right_eq_some, Option.some.injEq] at h
          simp [CapiCall.duplicates, CapiCall.account, CapiCall.given, hdup, hret, h.1, ← h.2]
        | false =>
          simp only [hdup, Bool.false_eq_true, if_false, Option.some.injEq] at h
          simp [CapiCall.duplicates, CapiCall.account, CapiCall.given, hdup, ← h]
      | close fd =>
        simp only [CapiCall.syscall, Syscall.allocates, Syscall.closedFd, Bool.false_eq_true,
          if_false, Option.ite_none_right_eq_some, Option.some.injEq] at h
        simp [CapiCall.duplicates, CapiCall.account, CapiCall.given, herr, ← h.2]
  · cases h

/-- What is open is what the caller can reach. -/
def Accounted (s : Desk) : Prop := s.table = s.known

/-- The step is no `fcntl` whose duplicating command succeeds. -/
def NoDup (_ : Desk) (a : CapiAction) : Prop := ¬ (a.call.duplicates = true ∧ a.answer.ret ≠ -1)

/-- Every open descriptor can be reached throughout a run exactly when no duplicating
`fcntl` of the run succeeds. -/
theorem accounted_iff_no_dup (table : Finset Int) (e : Errno) (as : List CapiAction) :
    Machine.Always step Accounted (init table e) as ↔ Machine.Guarded step NoDup (init table e) as := by
  refine Machine.always_iff_guarded (I := Accounted) id ?_ ?_ rfl
  · intro s a s' hs hno hstep
    obtain ⟨htable, hknown⟩ := step_cases hstep
    have hboth := answer_account htable
    rw [if_neg hno] at hboth
    unfold Accounted
    rw [hboth, hknown, hs]
  · intro s a s' hs hstep hs' hdup
    obtain ⟨htable, hknown⟩ := step_cases hstep
    have hboth := answer_account htable
    rw [if_pos hdup] at hboth
    obtain ⟨hfresh, hnew, hsame⟩ := hboth
    -- The new number is open, and the caller's set is the old one.
    apply hfresh
    rw [← hsame, hs, ← hknown, ← hs', hnew]
    exact Finset.mem_insert_self _ _

/-- `F_DUPFD` on descriptor 3: the kernel opens 4 and the caller gets a success code. -/
theorem dup_lost :
    ∃ s, Machine.run step (init {3} 0)
        [⟨.fcntlInt 3 .dupfd 0, ⟨4, 0, .nothing⟩⟩] = some s ∧
      s.table = {4, 3} ∧ s.known = {3} := by
  refine ⟨_, rfl, rfl, rfl⟩

end Desk
