-- SUMMARY: `descriptor.hpp`: an object that owns at most one handle and closes it when it is destroyed.
import Pposix.Core.Util

/-!
# Descriptors

`descriptor<Descriptor, GetNull, ClosePolicy>` stores one handle. The null handle
says that it owns nothing, but only `empty` looks at that: `close` and the
destructor hand whatever is stored to the close policy.
-/

/-- A null handle and a close policy. Every policy of the library is one call
under `PPOSIX_COMMON_CALL`. -/
structure Policy (D : Type) where
  /-- `GetNull{}()`. -/
  null : D
  /-- `ClosePolicy`. -/
  close : D → Sys ErrorCode
  /-- The call that the policy makes. -/
  call : D → Syscall
  /-- The handle that a call closes. -/
  handle : Syscall → Option D
  close_eq : ∀ d, close d = commonCall (call d)
  handle_call : ∀ d, handle (call d) = some d

/-- How the body of a function with a result ends. -/
inductive Exit where
  | returned
  /-- Control reaches the end without a `return`, which is undefined behaviour. -/
  | fellOff
  deriving DecidableEq, Repr

structure Descriptor {D : Type} (P : Policy D) where
  raw : D

namespace Descriptor

variable {D : Type} {P : Policy D}

/-- The constructors without a handle: `descriptor()` and `descriptor(null_d_t)`. -/
def default : Descriptor P := ⟨P.null⟩

def ofRaw (d : D) : Descriptor P := ⟨d⟩

/-- The move constructor swaps with a fresh member: the new object, and `other` afterwards. -/
def moveConstruct (other : Descriptor P) : Descriptor P × Descriptor P :=
  let this : Descriptor P := default
  (⟨other.raw⟩, ⟨this.raw⟩)

/-- The move assignment operator: `*this` and `other` afterwards. The body swaps
and has no `return`. -/
def moveAssign (this other : Descriptor P) : (Descriptor P × Descriptor P) × Exit :=
  ((⟨other.raw⟩, ⟨this.raw⟩), .fellOff)

def empty [DecidableEq D] (this : Descriptor P) : Bool := this.raw = P.null

def release (this : Descriptor P) : D × Descriptor P := (this.raw, ⟨P.null⟩)

def close (this : Descriptor P) : Sys (ErrorCode × Descriptor P) := do
  let error ← P.close this.raw
  if !error.isError then return (error, ⟨P.null⟩) else return (error, this)

/-- The destructor closes and drops the error. -/
def destroy (this : Descriptor P) : Sys PUnit := do
  let _ ← this.close

@[simp] theorem raw_default : (default : Descriptor P).raw = P.null := rfl

@[simp] theorem raw_ofRaw (d : D) : (ofRaw d : Descriptor P).raw = d := rfl

@[simp] theorem raw_moveConstruct (w : Descriptor P) :
    w.moveConstruct.1.raw = w.raw ∧ w.moveConstruct.2.raw = P.null := ⟨rfl, rfl⟩

@[simp] theorem raw_moveAssign (v w : Descriptor P) :
    (v.moveAssign w).1.1.raw = w.raw ∧ (v.moveAssign w).1.2.raw = v.raw := ⟨rfl, rfl⟩

/-! ## The calls -/

/-- What `close` leaves in the object. -/
def afterClose (w : Descriptor P) (r : Response) : Descriptor P :=
  if r.errorCode.isError then w else ⟨P.null⟩

/-- The handle goes only when the policy reports no error. -/
theorem afterClose_raw (w : Descriptor P) (r : Response) :
    (w.afterClose r).raw = if r.errorCode.isError then w.raw else P.null := by
  unfold afterClose
  split <;> rfl

/-- `close` makes one call, on the stored handle, whether or not it is null. -/
theorem close_apply (w : Descriptor P) (e : Errno) :
    w.close e = .call (P.call w.raw) fun r => .done ((r.errorCode, w.afterClose r), r.errno) := by
  have key : ∀ r : Response,
      (if !r.errorCode.isError then pure (r.errorCode, ⟨P.null⟩) else pure (r.errorCode, w) :
        Sys (ErrorCode × Descriptor P)) r.errno
      = .done ((r.errorCode, w.afterClose r), r.errno) := by
    intro r
    unfold afterClose
    cases r.errorCode.isError <;> rfl
  have hclose : w.close e = (P.close w.raw e).bind fun x =>
      (if !x.1.isError then pure (x.1, ⟨P.null⟩) else pure (x.1, w) :
        Sys (ErrorCode × Descriptor P)) x.2 := rfl
  rw [hclose, P.close_eq, commonCall_apply]
  exact congrArg (Prog.call _) (funext key)

theorem destroy_apply (w : Descriptor P) (e : Errno) :
    w.destroy e = .call (P.call w.raw) fun r => .done (⟨⟩, r.errno) := by
  have hdestroy : w.destroy e = (w.close e).bind fun x => .done (⟨⟩, x.2) := rfl
  rw [hdestroy, close_apply]
  rfl

end Descriptor
