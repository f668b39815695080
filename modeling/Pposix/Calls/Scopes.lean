-- SUMMARY: Programs built from nested `errno_context` scopes, and what `errno` is when a scope is left.
import Pposix.Config.Conf

/-!
# Scopes of `errno`

A statement language for functions that use `errno_context`: they write `errno`, make
calls that write it, restore any of the contexts that are open, return early with the
current error code, and nest scopes. Running a statement records every scope that is
left.
-/

/-- A loop that ends is the sequence of its rounds, and what follows a call can depend on
its answer. -/
inductive Stmt where
  | skip
  | write (err : Errno)
  | call (c : Syscall) (k : Response → Stmt)
  /-- `restore()` on an open context, the innermost being number `0`. -/
  | restore (i : Nat)
  | seq (a b : Stmt)
  | cond (test : Errno → Bool) (a b : Stmt)
  /-- `return current_errno_code();` -/
  | ret
  /-- `{ errno_context ctx; body }` -/
  | scope (body : Stmt)

namespace Stmt

/-- How a statement is left. -/
inductive Flow where
  | fell
  /-- Returned with a code, from a place where `depth` scopes were open. -/
  | returned (ec : ErrorCode) (depth : Nat)
  deriving DecidableEq, Repr

/-- A scope that was left. -/
structure ScopeRecord where
  /-- `errno` just before the scope was entered. -/
  before : Errno
  /-- `errno` where the body starts. -/
  start : Errno
  /-- `errno` where the body is left, before the destructor. -/
  last : Errno
  /-- `errno` after the destructor. -/
  after : Errno
  flow : Flow
  /-- The number of scopes open in the body. -/
  depth : Nat
  deriving DecidableEq, Repr

/-- `ctxs` are the open contexts, innermost first. -/
def run : Stmt → List ErrnoContext → Sys (Flow × List ScopeRecord)
  | .skip, _ => return (.fell, [])
  | .write err, _ => do
    setErrno err
    return (.fell, [])
  | .call c k, ctxs => do
    let r ← syscall c
    (k r).run ctxs
  | .restore i, ctxs => do
    match ctxs[i]? with
    | some ctx => ctx.restore
    | none => pure ()
    return (.fell, [])
  | .seq a b, ctxs => do
    let (flow, recs) ← a.run ctxs
    match flow with
    | .fell => do
      let (flow, recs') ← b.run ctxs
      return (flow, recs ++ recs')
    | .returned ec d => return (.returned ec d, recs)
  | .cond test a b, ctxs => do
    let err ← getErrno
    if test err then a.run ctxs else b.run ctxs
  | .ret, ctxs => do
    return (.returned (← currentErrnoCode) ctxs.length, [])
  | .scope body, ctxs => do
    let before ← getErrno
    let ctx ← ErrnoContext.construct
    let start ← getErrno
    let (flow, recs) ← body.run (ctx :: ctxs)
    let last ← getErrno
    ctx.destroy
    let after ← getErrno
    return (flow, recs ++ [⟨before, start, last, after, flow, ctxs.length + 1⟩])

/-- What a record of a scope says: `errno` is put back, the body started with zero, and a
code that was returned from the body itself is the value that `errno` had then. -/
def Restored (rec : ScopeRecord) : Prop :=
  rec.after = rec.before ∧ rec.start = 0 ∧
    ∀ ec, rec.flow = .returned ec rec.depth → ec.value = rec.last

/-- A code comes from a place with at least `depth` scopes open; if it comes from the same
level, it is the current `errno`. -/
def CodeFrom (depth : Nat) (flow : Flow) (err : Errno) : Prop :=
  ∀ ec d, flow = .returned ec d → depth ≤ d ∧ (d = depth → ec.value = err)

/-- What is known of every execution of a statement. -/
def Nested (depth : Nat) (x : (Flow × List ScopeRecord) × Errno) : Prop :=
  CodeFrom depth x.1.1 x.2 ∧ ∀ rec ∈ x.1.2, Restored rec

/-- What a scope leaves: `errno` as it was, and last in the list a record of the scope. -/
def Left (depth : Nat) (e : Errno) (x : (Flow × List ScopeRecord) × Errno) : Prop :=
  x.2 = e ∧ ∃ recs rec, x.1.2 = recs ++ [rec] ∧ rec.before = e ∧ rec.after = e ∧
    rec.flow = x.1.1 ∧ rec.depth = depth

theorem codeFrom_fell (depth : Nat) (err : Errno) : CodeFrom depth .fell err := by
  intro ec d h
  cases h

theorem nested_fell (depth : Nat) (err : Errno) : Nested depth ((.fell, []), err) :=
  ⟨codeFrom_fell depth err, by simp⟩

/-- The body runs from zero with the new context on top; the destructor puts `e` back. -/
theorem run_scope (body : Stmt) (ctxs : List ErrnoContext) (e : Errno) :
    (Stmt.scope body).run ctxs e = (body.run (⟨e⟩ :: ctxs) 0).bind fun x =>
      .done ((x.1.1, x.1.2 ++ [⟨e, 0, x.2, e, x.1.1, ctxs.length + 1⟩]), e) := rfl

/-- Every statement, run with any open contexts, from any `errno`, against any answers. -/
theorem run_nested (s : Stmt) (ctxs : List ErrnoContext) (e : Errno) :
    (s.run ctxs e).Paths fun _ x => Nested ctxs.length x := by
  induction s generalizing ctxs e with
  | skip => exact nested_fell ..
  | write err => exact nested_fell ..
  | call c k ih => exact fun r => ih r ctxs r.errno
  | restore i =>
    have hrun : (Stmt.restore i).run ctxs e =
        .done ((.fell, []), (ctxs[i]?.map ErrnoContext.savedErrno).getD e) := by
      simp only [run]
      cases ctxs[i]? <;> rfl
    rw [hrun]
    exact nested_fell ..
  | seq a b iha ihb =>
    refine Prog.Paths.bind (iha ctxs e) fun _ x hx => ?_
    obtain ⟨⟨flow, recs⟩, err⟩ := x
    obtain ⟨hcode, hrecs⟩ := hx
    cases flow with
    | fell =>
      refine Prog.Paths.bind (ihb ctxs err) fun _ y hy => ?_
      refine ⟨hy.1, fun rec hrec => ?_⟩
      rcases List.mem_append.mp hrec with hrec | hrec
      · exact hrecs rec hrec
      · exact hy.2 rec hrec
    | returned ec d => exact ⟨hcode, hrecs⟩
  | cond test a b iha ihb =>
    have hrun : (Stmt.cond test a b).run ctxs e =
        if test e then a.run ctxs e else b.run ctxs e := by
      simp only [run]
      change (if test e then a.run ctxs else b.run ctxs) e = _
      split <;> rfl
    rw [hrun]
    split
    · exact iha ctxs e
    · exact ihb ctxs e
  | ret =>
    refine ⟨fun ec d h => ?_, by simp⟩
    cases h
    exact ⟨Nat.le_refl _, fun _ => rfl⟩
  | scope body ih =>
    rw [run_scope]
    refine Prog.Paths.bind (ih (⟨e⟩ :: ctxs) 0) fun _ x hx => ?_
    obtain ⟨⟨flow, recs⟩, err⟩ := x
    obtain ⟨hcode, hrecs⟩ := hx
    refine ⟨fun ec d h => ?_, fun rec hrec => ?_⟩
    · have hdeep : ctxs.length + 1 ≤ d := (hcode ec d h).1
      exact ⟨by omega, fun heq => by omega⟩
    · rcases List.mem_append.mp hrec with hrec | hrec
      · exact hrecs rec hrec
      · obtain rfl := List.mem_singleton.mp hrec
        exact ⟨rfl, rfl, fun ec hec => (hcode ec _ hec).2 rfl⟩

/-- A scope puts `errno` back, however its body is left. -/
theorem run_left (body : Stmt) (ctxs : List ErrnoContext) (e : Errno) :
    ((Stmt.scope body).run ctxs e).Paths fun _ x => Left (ctxs.length + 1) e x := by
  rw [run_scope]
  exact Prog.Paths.bind (run_nested body (⟨e⟩ :: ctxs) 0) fun _ x _ =>
    ⟨rfl, x.1.2, _, rfl, rfl, rfl, rfl, rfl⟩

end Stmt

/-! ## The library's own scopes -/

/-- What `sysconf` makes of the answer to its call. -/
def sysconfOf (r : Response) : Result Int :=
  if r.ret ≠ -1 ∨ r.errno = 0 then .value r.ret else .error ⟨r.errno⟩

theorem sysconf_apply (name : Int) (e : Errno) :
    sysconf name e = .call (.sysconf name) fun r => .done (sysconfOf r, e) := by
  refine congrArg (Prog.call _) (funext fun r => ?_)
  change (if r.ret ≠ -1 then (_ : Sys (Result Int)) else _) r.errno = _
  unfold sysconfOf
  split <;> rename_i hret
  · rw [if_pos (.inl hret)]
    rfl
  · change (if (r.errno != 0) = true then (_ : Sys (Result Int)) else _) r.errno = _
    split <;> rename_i herr
    · have hset : r.errno ≠ 0 := by simpa using herr
      rw [if_neg (not_or.mpr ⟨hret, hset⟩)]
      rfl
    · rw [if_pos (.inr (by simpa using herr))]
      rfl

/-- What `confstr_length` and `confstr` make of the answer, when `value` is a success. -/
def confstrOf {α : Type} (value : Response → α) (r : Response) : Result α :=
  if r.errno = 0 then .value (value r) else .error ⟨r.errno⟩

/-- The test that both functions make of the current error code. -/
theorem confstrOf_eq {α : Type} (value : Response → α) (r : Response) :
    (if (⟨r.errno⟩ : ErrorCode).isError then .ofErrorCode ⟨r.errno⟩ else .ofValue (value r)) =
      confstrOf value r := by
  unfold confstrOf
  by_cases herr : r.errno = 0 <;>
    simp [ErrorCode.isError, herr, Result.ofValue, Result.ofErrorCode]

theorem confstrLength_apply (name : Int) (e : Errno) :
    confstrLength name e =
      .call (.confstr name 0 0) fun r => .done (confstrOf Response.size r, e) := by
  refine congrArg (Prog.call _) (funext fun r => ?_)
  rw [← confstrOf_eq]
  rfl

theorem confstr_apply (name : Int) (buffer : CharSpan) (e : Errno) :
    confstr name buffer e = .call (.confstr name buffer.data buffer.length) fun r =>
      .done (confstrOf (fun r => CharSpan.make buffer.data r.size) r, e) := by
  refine congrArg (Prog.call _) (funext fun r => ?_)
  rw [← confstrOf_eq]
  rfl

/-- `errno` is put back when a scope is left, in every program with any nesting of scopes:
every record says so, and every scope leaves one. `sysconf`, `confstr_length` and `confstr`
leave `errno` as it was. -/
theorem errno_scopes_nest :
    (∀ (s : Stmt) (ctxs : List ErrnoContext) (e : Errno),
      (s.run ctxs e).Paths fun _ x => ∀ rec ∈ x.1.2, Stmt.Restored rec) ∧
    (∀ (body : Stmt) (ctxs : List ErrnoContext) (e : Errno),
      ((Stmt.scope body).run ctxs e).Paths fun _ x => Stmt.Left (ctxs.length + 1) e x) ∧
    (∀ name e, (sysconf name e).Paths fun _ x => x.2 = e) ∧
    (∀ name e, (confstrLength name e).Paths fun _ x => x.2 = e) ∧
    ∀ name buffer e, (confstr name buffer e).Paths fun _ x => x.2 = e := by
  refine ⟨fun s ctxs e => ?_, Stmt.run_left, ?_, ?_, ?_⟩
  · exact (Stmt.run_nested s ctxs e).mono fun _ x hx => hx.2
  · intro name e
    rw [sysconf_apply]
    exact fun _ => rfl
  · intro name e
    rw [confstrLength_apply]
    exact fun _ => rfl
  · intro name buffer e
    rw [confstr_apply]
    exact fun _ => rfl
