-- SUMMARY: `util.hpp`: the macros that make a call and translate its outcome.
import Pposix.Core.Result

/-! # The common call macros -/

/-- `PPOSIX_COMMON_CALL`. -/
def commonCall (c : Syscall) : Sys ErrorCode := do
  let r ← syscall c
  if r.ret = -1 then currentErrnoCode else return {}

/-- `PPOSIX_COMMON_RESULT_CALL_IMPL`. -/
def commonResultCall (c : Syscall) : Sys (Result Int) := do
  let r ← syscall c
  if r.ret = -1 then return .ofErrorCode (← currentErrnoCode) else return .ofValue r.ret

/-- `PPOSIX_COMMON_RESULT_MAP_IMPL`: the value is built by a constructor. -/
def commonResultMap {α : Type} (mk : Int → α) (c : Syscall) : Sys (Result α) := do
  let r ← syscall c
  if r.ret = -1 then return .ofErrorCode (← currentErrnoCode) else return .ofValue (mk r.ret)

/-- The error code that `PPOSIX_COMMON_CALL` makes of an answer. -/
def Response.errorCode (r : Response) : ErrorCode := if r.ret = -1 then ⟨r.errno⟩ else {}

/-- The result that `PPOSIX_COMMON_RESULT_MAP_IMPL` makes of an answer. -/
def Response.result {α : Type} (mk : Int → α) (r : Response) : Result α :=
  if r.ret = -1 then .error ⟨r.errno⟩ else .value (mk r.ret)

/-- A call that fails leaves its error in `errno`. -/
theorem Response.errorCode_fail (err : Errno) (out : Out) :
    (Response.mk (-1) err out).errorCode = ⟨err⟩ := rfl

/-- The error code tells success from failure, as POSIX never fails with `errno` zero. -/
theorem Response.errorCode_isError {r : Response} (h : r.Posix) :
    r.errorCode.isError = true ↔ r.ret = -1 := by
  unfold errorCode
  split
  · rename_i hret
    simpa [ErrorCode.isError, hret] using h hret
  · rename_i hret
    simp [ErrorCode.isError, hret]

theorem commonCall_apply (c : Syscall) (e : Errno) :
    commonCall c e = .call c fun r => .done (r.errorCode, r.errno) := by
  have key : ∀ r : Response, (if r.ret = -1 then currentErrnoCode else pure {}) r.errno
      = (.done (r.errorCode, r.errno) : Prog Syscall Response _) := by
    intro r
    unfold Response.errorCode
    split <;> rfl
  exact congrArg (Prog.call c) (funext key)

/-- A call whose failure becomes an error, and whose answer becomes a value otherwise. -/
theorem translated_apply {α : Type} (mk : Response → α) (c : Syscall) (e : Errno) :
    (do
      let r ← syscall c
      if r.ret = -1 then return .ofErrorCode (← currentErrnoCode) else return .ofValue (mk r) :
        Sys (Result α)) e =
      .call c fun r => .done (if r.ret = -1 then .error ⟨r.errno⟩ else .value (mk r), r.errno) := by
  have key : ∀ r : Response,
      (if r.ret = -1 then do return .ofErrorCode (← currentErrnoCode)
        else return .ofValue (mk r) : Sys (Result α)) r.errno
      = .done (if r.ret = -1 then .error ⟨r.errno⟩ else .value (mk r), r.errno) := by
    intro r
    split <;> rfl
  exact congrArg (Prog.call c) (funext key)

theorem commonResultMap_apply {α : Type} (mk : Int → α) (c : Syscall) (e : Errno) :
    commonResultMap mk c e = .call c fun r => .done (r.result mk, r.errno) :=
  translated_apply (fun r => mk r.ret) c e

theorem commonResultCall_apply (c : Syscall) (e : Errno) :
    commonResultCall c e = .call c fun r => .done (r.result id, r.errno) :=
  commonResultMap_apply id c e
