-- SUMMARY: `sysconf.cpp` and `confstr.cpp`: configuration values, read inside an `errno_context`.
import Pposix.Core.Result
import Pposix.Core.Span

/-!
# Configuration values

Each function opens an `errno_context`, makes its call and translates the outcome.
The result is computed before the context is destroyed at the `return`.
-/

def sysconf (configName : Int) : Sys (Result Int) := do
  let errnoCtx ← ErrnoContext.construct
  let value ← syscall (.sysconf configName)
  let result : Result Int ←
    if value.ret ≠ -1 then pure (.ofValue value.ret)
    else do
      let error ← currentErrnoCode
      if error.isError then pure (.ofErrorCode error) else pure (.ofValue value.ret)
  errnoCtx.destroy
  return result

/-- `::confstr` returns a `size_t`. -/
def Response.size (r : Response) : SizeT := UInt64.ofInt r.ret

def confstrLength (name : Int) : Sys (Result SizeT) := do
  let context ← ErrnoContext.construct
  let length ← syscall (.confstr name 0 0)
  let error ← currentErrnoCode
  let result : Result SizeT := if error.isError then .ofErrorCode error else .ofValue length.size
  context.destroy
  return result

def confstr (name : Int) (nameBuffer : CharSpan) : Sys (Result CharSpan) := do
  let context ← ErrnoContext.construct
  let length ← syscall (.confstr name nameBuffer.data nameBuffer.length)
  let error ← currentErrnoCode
  let result : Result CharSpan :=
    if error.isError then .ofErrorCode error
    else .ofValue (CharSpan.make nameBuffer.data length.size)
  context.destroy
  return result
