-- SUMMARY: Sockets that are made, set, read and closed in any interleaving: a get shows what the kernel kept of the last set since its socket was made.
import Pposix.Base.Replay
import Pposix.Ownership.Factories
import Pposix.Sockets.Options

/-!
# Options over the lifetimes of sockets

The kernel hands out the number of a closed socket again, and a new socket has options of
its own. It may keep another value than the one that is set, as Linux does with the sizes of
buffers, and change an option later. The threads of a process make, set, read and close
sockets in any interleaving.
-/

namespace Lifetimes

/-! ## What is promised -/

/-- What the threads see, and what the kernel or other code changes. How the kernel keeps and
reports a value is for the statements: no code reads it. -/
inductive Entry where
  | made (fd : Int)
  | closed (fd : Int)
  | set (fd l : Int) (t : OptionType) (v : t.Value) (kept : OptVal)
  | changed (fd l : Int) (t : OptionType)
  | got (fd l : Int) (t : OptionType) (w : t.Value) (o : Outcome)
  | failed (ec : ErrorCode)

/-- What was kept of the values that were set since the sockets were made. -/
abbrev Values := Int → Int → OptionType → Option OptVal

/-- The socket `fd` is a new one. -/
def Values.clear (s : Values) (fd : Int) : Values := fun f l t => if f = fd then none else s f l t

def Values.put (s : Values) (fd l : Int) (t : OptionType) (v : Option OptVal) : Values := fun f l' =>
  if f = fd ∧ l' = l then Function.update (s f l') t v else s f l'

/-- The value shows what the kernel reports of the kept one. -/
def Reported (t : OptionType) (o : Outcome) (kept : OptVal) (w : t.Value) : Prop :=
  t.observe w = t.observe (t.decode (.object (o.report t.option.underlying kept)))

/-- What an entry does to the values. -/
inductive Keeps (s : Values) : Entry → Values → Prop where
  | made {fd : Int} : Keeps s (.made fd) (s.clear fd)
  | closed {fd : Int} : Keeps s (.closed fd) s
  | set {fd l : Int} {t : OptionType} {v : t.Value} {kept : OptVal} :
      Keeps s (.set fd l t v kept) (s.put fd l t (some kept))
  | changed {fd l : Int} {t : OptionType} : Keeps s (.changed fd l t) (s.put fd l t none)
  | got {fd l : Int} {t : OptionType} {w : t.Value} {o : Outcome} :
      (∀ kept, s fd l t = some kept → Reported t o kept w) → Keeps s (.got fd l t w o) s
  | failed {ec : ErrorCode} : Keeps s (.failed ec) s

/-! ## The kernel -/

structure Kernel where
  live : Int → Bool
  store : OptStore

/-- The kernel fails a call, makes a socket with a number and options, or carries out
another call. A close that fails may still release its number. Of a value that is set it
keeps what `keep` makes of it. -/
inductive Choice where
  | fail (err : Errno) (released : Bool)
  | made (noise : Errno) (fd : Nat) (options : Int × Int → OptVal)
  | done (o : Outcome) (keep : OptVal → OptVal)

/-- `EBADF`. -/
def ebadf : Errno := 9

/-- A new socket with options of its own. -/
def Kernel.make (k : Kernel) (fd : Int) (options : Int × Int → OptVal) : Kernel where
  live := Function.update k.live fd true
  store x := if x.1 = fd then options x.2 else k.store x

/-- The number can be given to a new socket. -/
def Kernel.release (k : Kernel) (fd : Int) : Kernel :=
  { k with live := Function.update k.live fd false }

/-- An option has another value. -/
def Kernel.put (k : Kernel) (fd l option : Int) (v : OptVal) : Kernel :=
  { k with store := Function.update k.store (fd, l, option) v }

/-- The kernel after a call that failed. -/
def Kernel.failed (k : Kernel) (released : Bool) : Syscall → Kernel
  | .close fd => if released then k.release fd else k
  | _ => k

/-- The answer to a call. A negative number is no descriptor. -/
def answer (choice : Choice) : Prog.Env Kernel Syscall Response := fun k c =>
  match choice, c with
  | _, .close (.negSucc _) => some (⟨-1, ebadf, .nothing⟩, k)
  | .fail err released, c =>
    if err ≠ 0 then some (⟨-1, err, .nothing⟩, k.failed released c) else none
  | .made noise fd options, .socket .. =>
    if k.live fd = false then some (⟨fd, noise, .nothing⟩, k.make fd options) else none
  | .done o _, .close fd =>
    if k.live fd = true then some (⟨0, o.errno, .nothing⟩, k.release fd) else none
  | .done o keep, .setsockopt fd level option (.object v) len =>
    if k.live fd = true ∧ len = v.size then
      some (⟨0, o.errno, .nothing⟩, k.put fd level option (keep v))
    else none
  | .done o _, .getsockopt fd level option _ len =>
    if k.live fd = true then
      let v := o.report option (k.store (fd, level, option))
      some (⟨0, o.errno, .option v (min v.size len)⟩, k)
    else none
  | _, _ => none

/-! ## The calls -/

inductive Call where
  | unsafeMake (dom : Int) (typ flags : Word) (prot : Int)
  | setsockopt (this : Socket) (l : Int) (t : OptionType) (v : t.Value) (set : Sys ErrorCode)
      (overload : this.setsockopt l t v = some set)
  | getsockopt (this : Socket) (l : Int) (t : OptionType)
  | destroy (this : Socket)

/-- What the caller sees of its call. -/
inductive Seen where
  | made (s : Socket)
  | set (fd l : Int) (t : OptionType) (v : t.Value)
  | got (fd l : Int) (t : OptionType) (w : t.Value)
  | destroyed (fd : Int)
  | failed (ec : ErrorCode)

/-- A result as its caller sees it. -/
def seen {α : Type} (f : α → Seen) : Result α → Seen
  | .error ec => .failed ec
  | .value a => f a

/-- An error code as its caller sees it, where `x` is what a success means. -/
def checked (x : Seen) (ec : ErrorCode) : Seen := if ec.isError then .failed ec else x

namespace Call

def run : Call → Sys Seen
  | .unsafeMake dom typ flags prot => do
    return seen .made (← Socket.unsafeMake dom typ flags prot)
  | .setsockopt this l t v set _ => do
    return checked (.set this.socketFd.raw l t v) (← set)
  | .getsockopt this l t => do
    return seen (.got this.socketFd.raw l t) (← this.getsockopt l t)
  | .destroy this => do
    let _ ← Wrapper.destroy this
    return .destroyed this.socketFd.raw

/-- The first system call, and the only one but for the destructors of empty objects. -/
def syscall : Call → Syscall
  | .unsafeMake dom typ flags prot => .socket dom (typ ||| flags).toInt prot
  | .setsockopt this l t v _ _ =>
    .setsockopt this.socketFd.raw l t.option.underlying (.object (t.encode v)) (t.encode v).size
  | .getsockopt this l t =>
    .getsockopt this.socketFd.raw l t.option.underlying (.object t.blank) t.blank.size
  | .destroy this => .close this.socketFd.raw

/-- What the caller sees of the answer. -/
def sees (c : Call) (r : Response) : Seen :=
  match c with
  | .unsafeMake .. => seen .made (r.result Wrapper.ofRaw)
  | .setsockopt this l t v _ _ => checked (.set this.socketFd.raw l t v) r.errorCode
  | .getsockopt this l t =>
    seen (.got this.socketFd.raw l t)
      (if r.ret = -1 then .error ⟨r.errno⟩ else .value (t.decode (r.written (.object t.blank))))
  | .destroy this => .destroyed this.socketFd.raw

/-- What the call leaves in `errno`: a socket that is made leaves empty objects behind. -/
def leaves (c : Call) (r : Response) : Errno :=
  match c with
  | .unsafeMake .. => if r.ret ≠ -1 then ebadf else r.errno
  | _ => r.errno

theorem answer_close_null (choice : Choice) (k : Kernel) :
    answer choice k (socketPolicy.call socketPolicy.null) = some (⟨-1, ebadf, .nothing⟩, k) := by
  cases choice <;> rfl

/-- A call is the kernel's answer and what the caller sees of it. -/
theorem exec_run (c : Call) (choice : Choice) (e : Errno) (k : Kernel) :
    Sys.exec (answer choice) e k c.run =
      (answer choice k c.syscall).map fun x => ((c.sees x.1, c.leaves x.1), x.2) := by
  cases c with
  | unsafeMake dom typ flags prot =>
    exact exec_handOver (answer_close_null choice) k (seen .made) (Socket.unsafeMake_apply ..)
  | setsockopt this l t v set overload =>
    rw [Socket.setsockopt_eq] at overload
    split at overload
    · cases overload
      exact Sys.exec_one _ _ _ (Socket.unsafeSetsockopt_apply ..)
    · cases overload
  | getsockopt this l t =>
    have hget := this.getsockoptObject_apply l t.option t.blank t.decode e
    rw [← Socket.getsockopt_eq] at hget
    exact Sys.exec_one _ _ (seen (.got this.socketFd.raw l t)) hget
  | destroy this =>
    exact Sys.exec_one _ _ (fun _ => Seen.destroyed this.socketFd.raw)
      (Wrapper.destroy_apply this e)

end Call

/-! ## The machine -/

/-- How the kernel reports what it carries out. -/
def Choice.outcome : Choice → Outcome
  | .done o _ => o
  | _ => ⟨none, 0, 1, by decide⟩

/-- The entry for a call that left the kernel `k'`. -/
def Seen.entry (choice : Choice) (k' : Kernel) : Seen → Entry
  | .made s => .made s.socketFd.raw
  | .set fd l t v => .set fd l t v (k'.store (fd, l, t.option.underlying))
  | .got fd l t w => .got fd l t w choice.outcome
  | .destroyed fd => .closed fd
  | .failed ec => .failed ec

structure State (π : Type) where
  kernel : Kernel
  errno : π → Errno
  log : List Entry

inductive Action (π : Type) where
  | call (who : π) (c : Call) (choice : Choice)
  /-- The kernel changes an option, or other code does. -/
  | change (fd l : Int) (t : OptionType) (v : OptVal)

section Machine

variable {π : Type}

def State.init (kernel : Kernel) (errno : π → Errno) : State π := ⟨kernel, errno, []⟩

def step [DecidableEq π] (s : State π) : Action π → Option (State π)
  | .call who c choice => do
    let ((seen, err), kernel) ← Sys.exec (answer choice) (s.errno who) s.kernel c.run
    return {
      kernel := kernel
      errno := Function.update s.errno who err
      log := s.log ++ [seen.entry choice kernel] }
  | .change fd l t v =>
    some { s with
      kernel := s.kernel.put fd l t.option.underlying v
      log := s.log ++ [.changed fd l t] }

end Machine

/-! ## What a call does -/

/-- The kernel stores what it kept. -/
def Agrees (k : Kernel) (s : Values) : Prop :=
  ∀ fd l t kept, s fd l t = some kept → k.store (fd, l, t.option.underlying) = kept

variable {k k' : Kernel} {s : Values} {choice : Choice}

theorem agrees_make (h : Agrees k s) (fd : Int) (options : Int × Int → OptVal) :
    Agrees (k.make fd options) (s.clear fd) := by
  intro f l t kept hkept
  unfold Values.clear at hkept
  split at hkept
  · cases hkept
  · rename_i hother
    simp only [Kernel.make, if_neg hother]
    exact h f l t kept hkept

/-- The kernel and the values agree on the option that changes, and on all others. -/
theorem agrees_put (h : Agrees k s) (fd l : Int) (t : OptionType) (v : OptVal) {x : Option OptVal}
    (hx : ∀ kept ∈ x, v = kept) :
    Agrees (k.put fd l t.option.underlying v) (s.put fd l t x) := by
  intro f l' t' kept hkept
  unfold Values.put at hkept
  split at hkept <;> rename_i hsame
  · obtain ⟨rfl, rfl⟩ := hsame
    by_cases ht : t' = t
    · subst ht
      rw [Function.update_self] at hkept
      exact (Function.update_self ..).trans (hx kept hkept)
    · rw [Function.update_of_ne ht] at hkept
      apply (Function.update_of_ne _ _ _).trans (h _ _ _ _ hkept)
      intro hkey
      injection hkey with _ hkey
      injection hkey with _ hcode
      exact ht (OptionType.option_injective (SocketOption.underlying_injective hcode))
  · apply (Function.update_of_ne _ _ _).trans (h _ _ _ _ hkept)
    intro hkey
    injection hkey with hfd hkey
    injection hkey with hl _
    exact hsame ⟨hfd, hl⟩

/-- A call that fails is seen as one, or is a destructor. -/
theorem entry_fail (choice : Choice) (k' : Kernel) (c : Call) {err : Errno} (herr : err ≠ 0) :
    (c.sees ⟨-1, err, .nothing⟩).entry choice k' = .failed ⟨err⟩ ∨
      ∃ fd, (c.sees ⟨-1, err, .nothing⟩).entry choice k' = .closed fd := by
  cases c with
  | unsafeMake dom typ flags prot => exact .inl rfl
  | setsockopt this l t v set overload =>
    simp [Call.sees, checked, Response.errorCode_fail, ErrorCode.isError_mk herr, Seen.entry]
  | getsockopt this l t => exact .inl rfl
  | destroy this => exact .inr ⟨_, rfl⟩

/-- A call that fails changes no values. -/
theorem keeps_fail (s : Values) (c : Call) {err : Errno} (herr : err ≠ 0) :
    Keeps s ((c.sees ⟨-1, err, .nothing⟩).entry choice k') s := by
  cases entry_fail choice k' c herr with
  | inl hfailed =>
    rw [hfailed]
    exact .failed
  | inr hclosed =>
    obtain ⟨fd, hclosed⟩ := hclosed
    rw [hclosed]
    exact .closed

theorem store_failed (k : Kernel) (released : Bool) (c : Syscall) :
    (k.failed released c).store = k.store := by
  cases c with
  | close fd => cases released <;> rfl
  | _ => rfl

/-- A call that the kernel fails changes no option. -/
theorem answer_fail {err : Errno} {released : Bool} {c : Syscall} {r : Response}
    (hanswer : answer (.fail err released) k c = some (r, k')) :
    k'.store = k.store ∧ ∃ err', err' ≠ 0 ∧ r = ⟨-1, err', .nothing⟩ := by
  unfold answer at hanswer
  split at hanswer
  · cases hanswer
    exact ⟨rfl, ebadf, by decide, rfl⟩
  · split at hanswer
    · rename_i herr
      cases hanswer
      exact ⟨store_failed .., _, herr, rfl⟩
    · cases hanswer
  all_goals contradiction

/-- A close changes no option. -/
theorem answer_close {fd : Int} {r : Response}
    (hanswer : answer choice k (.close fd) = some (r, k')) : k'.store = k.store := by
  cases fd with
  | negSucc n =>
    cases choice <;> (cases hanswer; rfl)
  | ofNat n =>
    cases choice with
    | fail err released => exact (answer_fail hanswer).1
    | made noise fd options => cases hanswer
    | done o keep =>
      simp only [answer] at hanswer
      split at hanswer
      · cases hanswer
        rfl
      · cases hanswer

theorem Agrees.of_store (h : Agrees k s) (hstore : k'.store = k.store) : Agrees k' s := by
  unfold Agrees
  rw [hstore]
  exact h

/-- A destructor leaves the options of all sockets. -/
theorem destroy_keeps {this : Socket} {r : Response} (h : Agrees k s)
    (hanswer : answer choice k (Call.destroy this).syscall = some (r, k')) :
    ∃ s', Keeps s (((Call.destroy this).sees r).entry choice k') s' ∧ Agrees k' s' :=
  ⟨s, .closed, h.of_store (answer_close hanswer)⟩

/-- What a call does to the kernel is what its caller sees of it. -/
theorem call_keeps {c : Call} {r : Response} (h : Agrees k s)
    (hanswer : answer choice k c.syscall = some (r, k')) :
    ∃ s', Keeps s ((c.sees r).entry choice k') s' ∧ Agrees k' s' := by
  cases choice with
  | fail err released =>
    obtain ⟨hstore, err', herr, rfl⟩ := answer_fail hanswer
    exact ⟨s, keeps_fail s c herr, h.of_store hstore⟩
  | made noise fd options =>
    cases c with
    | unsafeMake dom typ flags prot =>
      simp only [Call.syscall, answer] at hanswer
      split at hanswer
      · cases hanswer
        have hret : ¬ (fd : Int) = -1 := by omega
        refine ⟨s.clear fd, ?_, agrees_make h fd options⟩
        simp only [Call.sees, Response.result, if_neg hret, seen, Seen.entry]
        exact .made
      · cases hanswer
    | setsockopt this l t v set overload => cases hanswer
    | getsockopt this l t => cases hanswer
    | destroy this => exact destroy_keeps h hanswer
  | done o keep =>
    cases c with
    | unsafeMake dom typ flags prot => cases hanswer
    | setsockopt this l t v set overload =>
      simp only [Call.syscall, answer] at hanswer
      split at hanswer
      · cases hanswer
        refine ⟨_, .set, agrees_put h _ _ _ _ ?_⟩
        rintro _ ⟨⟩
        exact (Function.update_self (this.socketFd.raw, l, t.option.underlying) _ k.store).symm
      · cases hanswer
    | getsockopt this l t =>
      simp only [Call.syscall, answer] at hanswer
      split at hanswer
      · cases hanswer
        refine ⟨s, .got fun kept hkept => ?_, h⟩
        rw [← h _ _ _ _ hkept]
        rfl
      · cases hanswer
    | destroy this => exact destroy_keeps h hanswer

/-! ## Runs -/

/-- The entry makes the socket, sets the option once more, or changes it otherwise. -/
def Entry.Resets (fd l : Int) (t : OptionType) (e : Entry) : Prop :=
  e = .made fd ∨ (∃ v kept, e = .set fd l t v kept) ∨ e = .changed fd l t

/-- The value was set, and since then the option did not change and the socket is the same. -/
def LastSet (log : List Entry) (fd l : Int) (t : OptionType) (v : t.Value) (kept : OptVal) : Prop :=
  InForce (· = .set fd l t v kept) (Entry.Resets fd l t) log

theorem Values.put_of_ne (s : Values) {fd l fd' l' : Int} {t t' : OptionType} (x : Option OptVal)
    (hne : ¬ (fd = fd' ∧ l = l' ∧ t = t')) : s.put fd' l' t' x fd l t = s fd l t := by
  unfold put
  split <;> rename_i hsame
  · exact Function.update_of_ne (fun ht => hne ⟨hsame.1, hsame.2, ht⟩) ..
  · rfl

/-- An entry that does not reset the option keeps its value. -/
theorem Keeps.kept {s' : Values} {e : Entry} {fd l : Int} {t : OptionType} (h : Keeps s e s')
    (he : ¬ e.Resets fd l t) : s' fd l t = s fd l t := by
  cases h with
  | @made fd' =>
    apply if_neg
    rintro rfl
    exact he (.inl rfl)
  | @set fd' l' t' v kept =>
    apply Values.put_of_ne
    rintro ⟨rfl, rfl, rfl⟩
    exact he (.inr (.inl ⟨v, kept, rfl⟩))
  | changed =>
    apply Values.put_of_ne
    rintro ⟨rfl, rfl, rfl⟩
    exact he (.inr (.inr rfl))
  | closed => rfl
  | got _ => rfl
  | failed => rfl

/-- The values are those of the log. -/
theorem value_of_lastSet {log : List Entry} {fd l : Int} {t : OptionType} {v : t.Value}
    {kept : OptVal} (h : Replays Keeps (fun _ _ _ => none) log s)
    (hlast : LastSet log fd l t v kept) : s fd l t = some kept := by
  induction h with
  | nil => exact absurd hlast InForce.not_nil
  | snoc _ hkeeps ih =>
    obtain rfl | ⟨hold, hkept⟩ := InForce.of_append hlast
    · cases hkeeps
      simp [Values.put]
    · exact (Keeps.kept hkeeps hkept).trans (ih hold)

/-- What is expected of a get after the last set of its socket, level and option. -/
structure ReadsBack (log : List Entry) : Prop where
  /-- It shows what the kernel reports of what it kept. -/
  kept : ∀ i fd l t w o, log[i]? = some (.got fd l t w o) → ∀ v kept,
    LastSet (log.take i) fd l t v kept → Reported t o kept w
  /-- It shows what was set, if the kernel kept that, and a linger value's one. -/
  given : ∀ i fd l t w o, log[i]? = some (.got fd l t w o) → ∀ v,
    LastSet (log.take i) fd l t v (t.encode v) → LingerKept o t v → t.observe w = t.observe v

theorem readsBack {log : List Entry} (h : Replays Keeps (fun _ _ _ => none) log s) :
    ReadsBack log := by
  have hkept : ∀ i fd l t w o, log[i]? = some (.got fd l t w o) → ∀ v kept,
      LastSet (log.take i) fd l t v kept → Reported t o kept w := by
    intro i fd l t w o hi v kept hlast
    obtain ⟨a, a', ha, hkeeps⟩ := h.entry hi
    cases hkeeps with
    | got hreported => exact hreported kept (value_of_lastSet ha hlast)
  refine ⟨hkept, fun i fd l t w o hi v hlast hlinger => ?_⟩
  exact (hkept i fd l t w o hi v _ hlast).trans ((observe_decode_iff o t v).mpr hlinger)

section Runs

variable {π : Type} [DecidableEq π]

/-- The log replays on values that the kernel stores. -/
def Inv (x : State π) : Prop :=
  ∃ s, Replays Keeps (fun _ _ _ => none) x.log s ∧ Agrees x.kernel s

theorem step_inv {x x' : State π} {a : Action π} (hx : Inv x) (h : step x a = some x') :
    Inv x' := by
  obtain ⟨s, hreplay, hagrees⟩ := hx
  cases a with
  | call who c choice =>
    simp only [step, Call.exec_run] at h
    cases hanswer : answer choice x.kernel c.syscall with
    | none =>
      rw [hanswer] at h
      cases h
    | some y =>
      rw [hanswer] at h
      cases h
      obtain ⟨s', hkeeps, hagrees'⟩ := call_keeps hagrees hanswer
      exact ⟨s', hreplay.snoc hkeeps, hagrees'⟩
  | change fd l t v =>
    cases h
    exact ⟨_, hreplay.snoc .changed, agrees_put hagrees fd l t v (by simp)⟩

/-- In every run a get shows what the kernel kept of the last set since its socket was made. -/
theorem reads_back_over_lifetimes (kernel : Kernel) (errno : π → Errno) (as : List (Action π)) :
    Machine.Always step (fun x => ReadsBack x.log) (State.init kernel errno) as := by
  apply Machine.Guarded.always (I := Inv) (G := fun _ _ => True)
  · exact fun ⟨_, hreplay, _⟩ => readsBack hreplay
  · exact fun hx _ h => step_inv hx h
  · exact Machine.Guarded.of_forall (fun _ _ => trivial) as _
  · exact ⟨_, .nil, fun _ _ _ _ hv => nomatch hv⟩

end Runs

end Lifetimes
