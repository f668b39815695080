-- SUMMARY: The owning factories: what they call, and that they hand over exactly one owner.
import Pposix.Files.Dirent
import Pposix.Files.File
import Pposix.Lnx.Epoll
import Pposix.Memory.Mman
import Pposix.Rt.Mqueue
import Pposix.Sockets.Socket

/-!
# Factories

Every owning factory makes one call for a handle and wraps what it gets. The handle
moves through a few objects, and those that are left behind are destroyed empty:
each of their destructors calls the close policy on the null handle.
-/

/-! ## The common shape -/

section HandOver

variable {W D α : Type} {P : Policy D}

/-- The destructors of `n` empty objects, one after the other. -/
def destroyEmpties (P : Policy D) (a : α) : Nat → Errno → Prog Syscall Response (α × Errno)
  | 0, e => .done (a, e)
  | n + 1, _ => .call (P.call P.null) fun r => destroyEmpties P a n r.errno

theorem destroyEmpties_paths (P : Policy D) (a : α) (n : Nat) (e : Errno) :
    (destroyEmpties P a n e).Paths fun h x =>
      x.1 = a ∧ h.length = n ∧ ∀ q ∈ h, q.1 = P.call P.null := by
  induction n generalizing e with
  | zero => exact ⟨rfl, rfl, by simp⟩
  | succ n ih =>
    intro r
    refine (ih r.errno).mono fun h x hx => ?_
    obtain ⟨ha, hlen, hcalls⟩ := hx
    exact ⟨ha, by simp [hlen], by simpa using hcalls⟩

variable [Wrapper W P]

/-- The temporary that a handle was wrapped in is empty when it is destroyed. -/
theorem ofTemporary_ofRaw (d : D) (e : Errno) :
    Result.ofTemporary (Wrapper.ofRaw d : W) e =
      destroyEmpties P (.value (Wrapper.ofRaw d)) 1 e := by
  rw [Result.ofTemporary_apply, Wrapper.moveConstruct_ofRaw]
  rfl

/-- Make the call. If it returns `failed`, report its `errno`, else wrap the handle that
`mk` makes of what it returned and destroy `n` empty objects. -/
def handOver (W : Type) [Wrapper W P] (c : Syscall) (failed : Int) (mk : Int → D) (n : Nat) :
    Prog Syscall Response (Result W × Errno) :=
  .call c fun r =>
    if r.ret = failed then .done (.error ⟨r.errno⟩, r.errno)
    else destroyEmpties P (.value (Wrapper.ofRaw (mk r.ret))) n r.errno

variable {σ β : Type} {env : Prog.Env σ Syscall Response} {err : Errno}

omit [Wrapper W P] in
/-- Destructors of empty objects fail and change nothing. -/
theorem exec_destroyEmpties (hnull : ∀ s, env s (P.call P.null) = some (⟨-1, err, .nothing⟩, s))
    (a : α) (n : Nat) (s : σ) :
    ∀ e, (destroyEmpties P a (n + 1) e).exec env s = some ((a, err), s) := by
  induction n with
  | zero =>
    intro e
    simp [destroyEmpties, Prog.exec, hnull]
  | succ n ih =>
    intro e
    have hstep : (destroyEmpties P a (n + 2) e).exec env s =
        (env s (P.call P.null)).bind fun x => (destroyEmpties P a (n + 1) x.1.errno).exec env x.2 :=
      rfl
    rw [hstep, hnull]
    exact ih err

/-- What is handed over is what the call returned. -/
theorem exec_handOver {c : Syscall} {mk : Int → D} {n : Nat} {e : Errno} {p : Sys (Result W)}
    (hnull : ∀ s, env s (P.call P.null) = some (⟨-1, err, .nothing⟩, s)) (s : σ)
    (g : Result W → β) (hp : p e = handOver W c (-1) mk (n + 1)) :
    Sys.exec env e s (do return g (← p)) =
      (env s c).map fun x => ((g (x.1.result fun i => Wrapper.ofRaw (mk i)),
        if x.1.ret ≠ -1 then err else x.1.errno), x.2) := by
  unfold Sys.exec
  rw [Sys.return_apply, hp, Prog.exec_bind]
  simp only [handOver, Prog.exec]
  cases env s c with
  | none => rfl
  | some x =>
    obtain ⟨r, s'⟩ := x
    simp only [Option.bind_some, Option.map_some, Response.result]
    split
    · rename_i hret
      simp [hret, Prog.exec]
    · simp [exec_destroyEmpties hnull]

end HandOver

/-! ## Moving a result on -/

section Moves

variable {W D : Type} {P : Policy D} [Wrapper W P]

/-- An object that can hold a wrapper: a result, or the wrapper itself. -/
inductive Holder (W : Type) where
  | result (r : Result W)
  | wrapper (w : W)

/-- The handle that the object stores, if there is a wrapper in it. -/
def Holder.raw : Holder W → Option D
  | .result (.error _) => none
  | .result (.value w) => some (Wrapper.raw w)
  | .wrapper w => some (Wrapper.raw w)

inductive Move where
  | intoResult
  | intoWrapper

/-- The object that is move-constructed, and the source afterwards. -/
def Holder.move : Move → Holder W → Option (Holder W × Holder W)
  | .intoResult, .result r => some (.result r.moveConstruct.1, .result r.moveConstruct.2)
  | .intoResult, .wrapper w =>
    some (.result (.ofValue (Wrapper.moveConstruct w).1), .wrapper (Wrapper.moveConstruct w).2)
  | .intoWrapper, .result r => r.moveOut.map fun m => (.wrapper m.1, .result m.2)
  | .intoWrapper, .wrapper w =>
    some (.wrapper (Wrapper.moveConstruct w).1, .wrapper (Wrapper.moveConstruct w).2)

/-- A chain of moves: the last object, and all the sources. -/
def Holder.moves : List Move → Holder W → Option (Holder W × List (Holder W))
  | [], x => some (x, [])
  | m :: ms, x => (x.move m).bind fun y => (y.1.moves ms).map fun z => (z.1, y.2 :: z.2)

/-- A holder of a handle can be moved, and hands the handle over. -/
theorem Holder.move_raw (m : Move) {x : Holder W} {d : D} (hx : x.raw = some d) :
    ∃ y z, x.move m = some (y, z) ∧ y.raw = some d ∧ z.raw = some P.null := by
  have hmove : ∀ w : W, Wrapper.raw w = d →
      some (Wrapper.raw (Wrapper.moveConstruct w).1) = some d ∧
        some (Wrapper.raw (Wrapper.moveConstruct w).2) = some P.null := by
    intro w hw
    obtain ⟨hnew, hold⟩ := Wrapper.raw_moveConstruct w
    exact ⟨by rw [hnew, hw], by rw [hold]⟩
  cases x with
  | result r =>
    cases r with
    | error ec => cases hx
    | value w => cases m <;> exact ⟨_, _, rfl, hmove w (Option.some.inj hx)⟩
  | wrapper w => cases m <;> exact ⟨_, _, rfl, hmove w (Option.some.inj hx)⟩

/-- Every chain of moves is defined, and only the last object owns the handle. -/
theorem Holder.moves_raw (ms : List Move) {x : Holder W} {d : D} (hx : x.raw = some d) :
    ∃ y zs, x.moves ms = some (y, zs) ∧ y.raw = some d ∧ ∀ z ∈ zs, z.raw = some P.null := by
  induction ms generalizing x with
  | nil => exact ⟨x, [], rfl, hx, by simp⟩
  | cons m ms ih =>
    obtain ⟨x', z, hm, hx', hz⟩ := move_raw m hx
    obtain ⟨y, zs, hms, hy, hzs⟩ := ih hx'
    refine ⟨y, z :: zs, ?_, hy, by simpa using ⟨hz, hzs⟩⟩
    rw [moves, hm, Option.bind_some, hms, Option.map_some]

end Moves

/-! ## One owner is handed over -/

section HandsOver

variable {W D : Type} {P : Policy D} [Wrapper W P]

/-- On every path the first call is `c`. If it failed, it was the only one and the result
is the error that it set. If it did not, the result holds the only owner of the handle,
all later calls are destructors of empty objects, and every chain of moves from the result
is defined and leaves one owner. -/
def HandsOver (c : Syscall) (failed : Int) (mk : Int → D)
    (p : Prog Syscall Response (Result W × Errno)) : Prop :=
  p.Paths fun h x => ∃ r rest, h = (c, r) :: rest ∧
    (r.ret = failed → x.1 = .error ⟨r.errno⟩ ∧ rest = []) ∧
    (r.ret ≠ failed → (∃ w, x.1 = .value w ∧ Wrapper.raw w = mk r.ret) ∧
      (∀ q ∈ h, P.handle q.1 ≠ some (mk r.ret)) ∧ (∀ q ∈ rest, q.1 = P.call P.null) ∧
      ∀ ms, ∃ y zs, (Holder.result x.1).moves ms = some (y, zs) ∧
        y.raw = some (mk r.ret) ∧ ∀ z ∈ zs, z.raw = some P.null)

theorem handsOver_handOver {c : Syscall} {failed : Int} {mk : Int → D} (n : Nat)
    (hc : P.handle c = none) (hmk : ∀ i, i ≠ failed → mk i ≠ P.null) :
    HandsOver c failed mk (handOver W c failed mk n) := by
  intro r
  dsimp only
  split <;> rename_i hr
  · exact ⟨r, [], rfl, fun _ => ⟨rfl, rfl⟩, fun h => absurd hr h⟩
  · refine (destroyEmpties_paths P _ n r.errno).mono fun h x hx => ?_
    obtain ⟨hvalue, -, hnull⟩ := hx
    have hraw : Wrapper.raw (Wrapper.ofRaw (mk r.ret) : W) = mk r.ret := Wrapper.raw_ofRaw _
    refine ⟨r, h, rfl, fun h' => absurd h' hr, fun _ => ⟨⟨_, hvalue, hraw⟩, ?_, hnull, ?_⟩⟩
    · have hne : P.null ≠ mk r.ret := (hmk r.ret hr).symm
      intro q hq
      rcases List.mem_cons.mp hq with rfl | hq
      · simp [hc]
      · simp [hnull q hq, P.handle_call, hne]
    · intro ms
      apply Holder.moves_raw ms
      rw [hvalue]
      exact congrArg some hraw

end HandsOver

/-! ## The factories -/

section Factories

/-- The statements that the factories have in common. -/
theorem handOver_of_body {W D : Type} {P : Policy D} [Wrapper W P] {c : Syscall} {failed : Int}
    {mk : Int → D} {n : Nat} (body : Int → Sys (Result W))
    (hbody : ∀ i e, body i e = destroyEmpties P (.value (Wrapper.ofRaw (mk i))) n e) (e : Errno) :
    (do
      let r ← syscall c
      if r.ret = failed then return .ofErrorCode (← currentErrnoCode) else body r.ret :
        Sys (Result W)) e = handOver W c failed mk n := by
  have key : ∀ r : Response,
      (if r.ret = failed then do return .ofErrorCode (← currentErrnoCode)
        else body r.ret : Sys (Result W)) r.errno =
      if r.ret = failed then .done (.error ⟨r.errno⟩, r.errno)
      else destroyEmpties P (.value (Wrapper.ofRaw (mk r.ret))) n r.errno := by
    intro r
    split
    · rfl
    · exact hbody r.ret r.errno
  exact congrArg (Prog.call c) (funext key)

theorem Socket.unsafeMake_apply (dom : Int) (typ flags : Word) (prot : Int) (e : Errno) :
    unsafeMake dom typ flags prot e =
      handOver Socket (.socket dom (typ ||| flags).toInt prot) (-1) id 2 := by
  refine handOver_of_body (fun i => do
    (ofFd (.ofRaw i)).2.destroy
    Result.ofTemporary (ofFd (.ofRaw i)).1) (fun i e => ?_) e
  have hbody : (do
      (ofFd (.ofRaw i)).2.destroy
      Result.ofTemporary (Wrapper.ofRaw i : Socket) : Sys (Result Socket)) e =
      (((ofFd (.ofRaw i)).2.destroy : Sys PUnit) e).bind fun x =>
        Result.ofTemporary (Wrapper.ofRaw i : Socket) x.2 := rfl
  apply hbody.trans
  rw [Descriptor.destroy_apply]
  exact congrArg (Prog.call _) (funext fun r => ofTemporary_ofRaw i r.errno)

theorem Epoll.unsafeCreate_apply (size : Int) (e : Errno) :
    unsafeCreate size e = handOver Epoll (.epollCreate size) (-1) id 1 :=
  handOver_of_body (fun i => Result.ofTemporary (unsafeMakeEpoll i)) ofTemporary_ofRaw e

theorem Epoll.unsafeCreate1_apply (flags : Word) (e : Errno) :
    unsafeCreate1 flags e = handOver Epoll (.epollCreate1 flags.toInt) (-1) id 1 :=
  handOver_of_body (fun i => Result.ofTemporary (unsafeMakeEpoll i)) ofTemporary_ofRaw e

theorem Mq.opened_apply (c : Syscall) (e : Errno) : opened c e = handOver Mq c (-1) id 1 :=
  handOver_of_body (fun i => Result.ofTemporary (Wrapper.ofRaw i)) ofTemporary_ofRaw e

theorem Mq.unsafeOpen_apply (name : String) (mode option : Word) (e : Errno) :
    unsafeOpen name mode option e = handOver Mq (.mqOpen name (mode ||| option) []) (-1) id 1 :=
  opened_apply ..

theorem openedDir_apply (c : Syscall) (e : Errno) :
    openedDir c e = handOver UniqueDirent c 0 id 1 :=
  handOver_of_body (fun i => Result.ofTemporary (Wrapper.ofRaw i)) ofTemporary_ofRaw e

/-- `result_map` after a call of the C layer. -/
theorem handOver_of_resultMap {W α D : Type} {P : Policy D} [Wrapper W P] {c : Syscall}
    {failed : Int} {mk : Int → D} {mk' : Int → α} {n : Nat} {func : α → Sys (Result W)}
    {p : Sys (Result α)} {e : Errno}
    (hp : p e = .call c fun r =>
      .done (if r.ret = failed then .error ⟨r.errno⟩ else .value (mk' r.ret), r.errno))
    (hfunc : ∀ i e, func (mk' i) e = destroyEmpties P (.value (Wrapper.ofRaw (mk i))) n e) :
    (do resultMap (← p) func : Sys (Result W)) e = handOver W c failed mk n := by
  have hbind : (do resultMap (← p) func : Sys (Result W)) e =
      (p e).bind fun x => resultMap x.1 func x.2 := rfl
  rw [hbind, hp]
  refine congrArg (Prog.call c) (funext fun r => ?_)
  change resultMap (if r.ret = failed then _ else _) func r.errno = _
  split
  · rfl
  · exact hfunc r.ret r.errno

theorem File.open_apply (path : String) (access flags : Word) (e : Errno) :
    File.open_ path access flags e =
      handOver File (.open_ path (access ||| flags) none) (-1) id 1 :=
  handOver_of_resultMap (commonResultMap_apply ..) ofTemporary_ofRaw

theorem File.openPermission_apply (path : String) (access flags perm : Word) (e : Errno) :
    File.openPermission path access flags perm e =
      handOver File (.open_ path (access ||| flags) (some perm)) (-1) id 1 :=
  handOver_of_resultMap (commonResultMap_apply ..) ofTemporary_ofRaw

theorem Mmap.map_apply (addr : Ptr) (len : SizeT) (prot flags : Word) (fildes off : Int)
    (e : Errno) :
    Mmap.map addr len prot flags fildes off e =
      handOver Mmap (.mmap addr len prot flags fildes off) mapFailed (fun p => ⟨p, len⟩) 1 :=
  handOver_of_resultMap ((congrFun (Capi.mmapMap_eq ..) e).trans (commonResultMap_apply ..))
    fun _ => ofTemporary_ofRaw _

/-- Every owning factory hands over exactly one owner, whatever the kernel answers. -/
theorem factories_hand_over :
    (∀ dom typ flags prot e, HandsOver (.socket dom (typ ||| flags).toInt prot) (-1) id
      (Socket.unsafeMake dom typ flags prot e)) ∧
    (∀ size e, HandsOver (.epollCreate size) (-1) id (Epoll.unsafeCreate size e)) ∧
    (∀ flags e, HandsOver (.epollCreate1 flags.toInt) (-1) id (Epoll.unsafeCreate1 flags e)) ∧
    (∀ name mode option e, HandsOver (.mqOpen name (mode ||| option) []) nullMqdT id
      (Mq.unsafeOpen name mode option e)) ∧
    (∀ fd e, HandsOver (.fdopendir fd) 0 id (opendirFd fd e)) ∧
    (∀ path e, HandsOver (.opendir path) 0 id (opendir path e)) ∧
    (∀ path access flags e, HandsOver (.open_ path (access ||| flags) none) (-1) id
      (File.open_ path access flags e)) ∧
    ∀ path access flags perm e, HandsOver (.open_ path (access ||| flags) (some perm)) (-1) id
      (File.openPermission path access flags perm e) := by
  refine ⟨?_, ?_, ?_, ?_, ?_, ?_, ?_, ?_⟩
  · intro dom typ flags prot e
    rw [Socket.unsafeMake_apply]
    exact handsOver_handOver 2 rfl fun _ => id
  · intro size e
    rw [Epoll.unsafeCreate_apply]
    exact handsOver_handOver 1 rfl fun _ => id
  · intro flags e
    rw [Epoll.unsafeCreate1_apply]
    exact handsOver_handOver 1 rfl fun _ => id
  · intro name mode option e
    rw [Mq.unsafeOpen_apply]
    exact handsOver_handOver 1 rfl fun _ => id
  · intro fd e
    unfold opendirFd
    rw [openedDir_apply]
    exact handsOver_handOver 1 rfl fun _ => id
  · intro path e
    unfold opendir
    rw [openedDir_apply]
    exact handsOver_handOver 1 rfl fun _ => id
  · intro path access flags e
    rw [File.open_apply]
    exact handsOver_handOver 1 rfl fun _ => id
  · intro path access flags perm e
    rw [File.openPermission_apply]
    exact handsOver_handOver 1 rfl fun _ => id

/-- So do `epoll::create()` and `epoll::create(epoll_cloexec)`. -/
theorem Epoll.create_hands_over (e : Errno) :
    HandsOver (.epollCreate 1) (-1) id (Epoll.create e) ∧
      HandsOver (.epollCreate1 EpollFlag.cloexec.underlying.toInt) (-1) id
        (Epoll.createCloexec e) := by
  unfold Epoll.create Epoll.createCloexec
  rw [Epoll.unsafeCreate_apply, Epoll.unsafeCreate1_apply]
  exact ⟨handsOver_handOver 1 rfl fun _ => id, handsOver_handOver 1 rfl fun _ => id⟩

end Factories
