-- SUMMARY: How `epoll::wait`, `epoll::pwait` and `ioctl` translate the outcome of their call.
import Pposix.Files.Ioctl
import Pposix.Lnx.Epoll

/-!
# Outcomes

A function that returns `PPOSIX_COMMON_CALL(...)` as a `result<int>` returns the error
alternative always, since the macro yields an error code. The value of the call is lost,
and a success is reported as an error with the success code.
-/

/-- What the outcome `r` of a call should become: its `errno` if it failed, else its value. -/
def Translates (r : Response) (x : Result Int) : Prop :=
  (r.ret = -1 → x = .error ⟨r.errno⟩) ∧ (r.ret ≠ -1 → x = .value r.ret) ∧
    (x.hasError = true ↔ r.ret = -1) ∧ ∀ ec, x = .error ec → ec.isError = true

/-- The program makes the call `c` and no other, and translates its outcome exactly when
it is a failure that set `errno`. -/
def TranslatesFailures (c : Syscall) (p : Prog Syscall Response (Result Int × Errno)) : Prop :=
  p.Paths fun h x => ∃ r, h = [(c, r)] ∧ (Translates r x.1 ↔ r.ret = -1 ∧ r.errno ≠ 0)

/-- A function that returns what the macro yields. -/
def returnCode (c : Syscall) : Sys (Result Int) := do
  return .ofErrorCode (← commonCall c)

theorem returnCode_apply (c : Syscall) (e : Errno) :
    returnCode c e = .call c fun r => .done (.error r.errorCode, r.errno) := by
  unfold returnCode
  rw [Sys.return_apply, commonCall_apply]
  rfl

/-- The error alternative translates the outcome only of a failure that set `errno`. -/
theorem translates_error_iff (r : Response) :
    Translates r (.error r.errorCode) ↔ r.ret = -1 ∧ r.errno ≠ 0 := by
  constructor
  · rintro ⟨-, -, herror, hcode⟩
    have hret : r.ret = -1 := herror.mp rfl
    have hset := hcode r.errorCode rfl
    simp only [Response.errorCode, if_pos hret] at hset
    exact ⟨hret, by simpa [ErrorCode.isError] using hset⟩
  · rintro ⟨hret, hset⟩
    simp only [Response.errorCode, if_pos hret]
    refine ⟨fun _ => rfl, fun h => absurd hret h, by simp [Result.hasError, hret], ?_⟩
    intro ec hec
    cases hec
    simpa [ErrorCode.isError] using hset

theorem translatesFailures_returnCode (c : Syscall) (e : Errno) :
    TranslatesFailures c (returnCode c e) := by
  rw [returnCode_apply]
  exact fun r => ⟨r, rfl, translates_error_iff r⟩

/-- A call of one of the eight functions that return what the macro yields. -/
inductive Invocation where
  | wait (this : Epoll) (events : Span) (timeout : Int)
  | pwait (this : Epoll) (events : Span) (timeout : Int) (sigmask : Ptr)
  | ofInt (fd r i : Int)
  | ofPtr (fd r : Int) (ptr : Data)
  | ofCptr (fd r : Int) (ptr : Data)
  | ofNullptr (fd r : Int)
  | ofView (fd r : Int) (val : AnyView)
  | ofCview (fd r : Int) (val : AnyCview)

namespace Invocation

def run : Invocation → Sys (Result Int)
  | wait this events timeout => this.wait events timeout
  | pwait this events timeout sigmask => this.pwait events timeout sigmask
  | ofInt fd r i => Ioctl.ofInt fd r i
  | ofPtr fd r ptr => Ioctl.ofPtr fd r ptr
  | ofCptr fd r ptr => Ioctl.ofCptr fd r ptr
  | ofNullptr fd r => Ioctl.ofNullptr fd r
  | ofView fd r val => Ioctl.ofView fd r val
  | ofCview fd r val => Ioctl.ofCview fd r val

/-- The system call under it, with the arguments that it gets. -/
def underlying : Invocation → Syscall
  | wait this events timeout =>
    .epollWait this.epollFd.raw events.data (toInt events.length.toNat) timeout
  | pwait this events timeout sigmask =>
    .epollPwait this.epollFd.raw events.data (toInt events.length.toNat) timeout sigmask
  | ofInt fd r i => .ioctl fd r (.int i)
  | ofPtr fd r ptr | ofCptr fd r ptr => .ioctl fd r (.ptr ptr)
  | ofNullptr fd r => .ioctl fd r (.ptr (.memory 0))
  | ofView fd r val => .ioctl fd r (.ptr val.data)
  | ofCview fd r val => .ioctl fd r (.ptr val.data)

/-- Each overload ends in the macro, on the call under it. -/
theorem run_eq (i : Invocation) : i.run = returnCode i.underlying := by
  cases i <;> rfl

end Invocation

/-- The eight functions translate failures that set `errno`, and nothing else. -/
theorem wait_and_ioctl_translate_only_failures (i : Invocation) (e : Errno) :
    TranslatesFailures i.underlying (i.run e) := by
  rw [Invocation.run_eq]
  exact translatesFailures_returnCode i.underlying e

/-- Two events are ready, and the caller gets an error with the success code. -/
theorem wait_ready_events_lost :
    Sys.exec (fun (_ : Unit) _ => some (⟨2, 0, .nothing⟩, ())) 0 ()
        (Epoll.wait ⟨⟨5⟩⟩ ⟨4096, 8⟩ 0) = some ((.error ⟨0⟩, 0), ()) ∧
      ¬ Translates ⟨2, 0, .nothing⟩ (.error ⟨0⟩) := by
  refine ⟨rfl, fun h => ?_⟩
  cases h.2.1 (by decide)
