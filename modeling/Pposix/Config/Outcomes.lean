-- SUMMARY: How `sysconf`, `confstr_length` and `confstr` classify the outcome of their libc call.
import Pposix.Calls.Scopes

/-!
# Outcomes of configuration calls

A libc call that succeeds may leave anything in `errno`. So an outcome is a failure
only when the value says that it may be one. `sysconf` tests the value first. The two
functions over `::confstr` test `errno` alone.
-/

namespace Config

variable {α : Type}

/-- `::sysconf` failed: it returned `-1` and changed `errno` from zero. -/
def SysconfFailed (r : Response) : Prop := r.ret = -1 ∧ r.errno ≠ 0

/-- `::confstr` failed: it returned `0` and changed `errno` from zero. -/
def ConfstrFailed (r : Response) : Prop := r.size = 0 ∧ r.errno ≠ 0

/-- What a wrapper should make of an outcome: an error exactly when the call failed, with
the `errno` that it set, and else a value that agrees with the outcome. -/
structure Classified (failed : Response → Prop) (agrees : Response → α → Prop) (r : Response)
    (x : Result α) : Prop where
  error_iff : x.hasError = true ↔ failed r
  code : ∀ ec, x = .error ec → ec = makeErrnoCode r.errno
  value : ∀ a, x = .value a → agrees r a

/-- A span that agrees with what `::confstr` returned: it starts where the buffer does and
has the length of the value, which may be cut to the buffer. -/
def SpanAgrees (buffer : CharSpan) (r : Response) (span : CharSpan) : Prop :=
  span.data = buffer.data ∧
    (span.length = r.size ∨ span.length.toNat = min r.size.toNat buffer.length.toNat)

/-- The program makes the call `c`, and classifies its outcome where `cond` holds and
nowhere else. -/
def ClassifiesWhere (cond : Response → Prop) (c : Syscall) (failed : Response → Prop)
    (agrees : Response → α → Prop) (p : Prog Syscall Response (Result α × Errno)) : Prop :=
  p.Paths fun h x => ∃ r, h = [(c, r)] ∧ (Classified failed agrees r x.1 ↔ cond r)

/-- The test that `sysconf` makes is the classification. -/
theorem classified_sysconfOf (r : Response) :
    Classified SysconfFailed (fun r value => value = r.ret) r (sysconfOf r) := by
  unfold sysconfOf
  split <;> rename_i htest
  · refine ⟨iff_of_false (by simp [Result.hasError]) fun hfail => ?_, by simp, ?_⟩
    · exact htest.elim (absurd hfail.1) hfail.2
    · rintro a ⟨⟩
      rfl
  · refine ⟨iff_of_true rfl ?_, ?_, by simp⟩
    · exact not_or.mp htest |>.imp_left not_not.mp
    · rintro ec ⟨⟩
      rfl

/-- A test of `errno` alone takes a value for a failure when the call left something in
`errno`. -/
theorem classified_confstrOf_iff {agrees : Response → α → Prop} {value : Response → α}
    {r : Response} (hvalue : agrees r (value r)) :
    Classified ConfstrFailed agrees r (confstrOf value r) ↔ r.size = 0 ∨ r.errno = 0 := by
  unfold confstrOf
  by_cases herr : r.errno = 0
  · rw [if_pos herr]
    refine iff_of_true ⟨iff_of_false (by simp [Result.hasError]) fun hfail => hfail.2 herr,
      by simp, ?_⟩ (.inr herr)
    rintro a ⟨⟩
    exact hvalue
  · rw [if_neg herr, or_iff_left herr]
    constructor
    · exact fun h => (h.error_iff.mp rfl).1
    · intro hsize
      refine ⟨iff_of_true rfl ⟨hsize, herr⟩, ?_, by simp⟩
      rintro ec ⟨⟩
      rfl

/-- The span that `confstr` makes agrees, null buffers included. -/
theorem spanAgrees_make (p : Ptr) (len : SizeT) (r : Response) :
    SpanAgrees (CharSpan.make p len) r (CharSpan.make (CharSpan.make p len).data r.size) := by
  refine ⟨rfl, ?_⟩
  by_cases hp : p = 0
  · subst hp
    exact .inr (Nat.min_zero _).symm
  · exact .inl (View.length_ofBuffer hp r.size)

/-- `sysconf` classifies every outcome. `confstr_length` and `confstr` classify those where
the call returned zero or left zero in `errno`. -/
theorem classified_iff (name : Int) (p : Ptr) (len : SizeT) (e : Errno) :
    ClassifiesWhere (fun _ => True) (.sysconf name) SysconfFailed (fun r value => value = r.ret)
      (sysconf name e) ∧
    ClassifiesWhere (fun r => r.size = 0 ∨ r.errno = 0) (.confstr name 0 0) ConfstrFailed
      (fun r length => length = r.size) (confstrLength name e) ∧
    ClassifiesWhere (fun r => r.size = 0 ∨ r.errno = 0)
      (.confstr name (CharSpan.make p len).data (CharSpan.make p len).length) ConfstrFailed
      (SpanAgrees (CharSpan.make p len)) (confstr name (CharSpan.make p len) e) := by
  refine ⟨?_, ?_, ?_⟩
  · rw [sysconf_apply]
    exact fun r => ⟨r, rfl, iff_of_true (classified_sysconfOf r) trivial⟩
  · rw [confstrLength_apply]
    exact fun r => ⟨r, rfl, classified_confstrOf_iff rfl⟩
  · rw [confstr_apply]
    refine fun r => ⟨r, rfl, ?_⟩
    apply classified_confstrOf_iff
    exact spanAgrees_make p len r

/-- `::confstr` returns 14 and leaves 2 in `errno`, and the caller gets an error. -/
theorem confstr_noise_is_error :
    Sys.exec (fun (_ : Unit) _ => some (⟨14, 2, .nothing⟩, ())) 0 ()
        (confstr 0 (CharSpan.make 4096 64)) = some ((.error ⟨2⟩, 0), ()) ∧
      ¬ Classified ConfstrFailed (SpanAgrees (CharSpan.make 4096 64)) ⟨14, 2, .nothing⟩
        (.error ⟨2⟩) := by
  refine ⟨rfl, fun h => ?_⟩
  exact absurd (h.error_iff.mp rfl).1 (by decide)

end Config
