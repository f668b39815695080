-- SUMMARY: The calls of `file` against the kernel with files: what each one makes of the kernel's answer.
import Pposix.Files.Store
import Pposix.Ownership.Factories

/-!
# Calls on files

Each function of `file` makes one call, and so does its destructor. An opening that
succeeds makes a second one, the destructor of an empty object, which changes nothing but
`errno`.
-/

namespace Files

/-! ## The calls -/

/-- A call on `file`, with the pointer and the length that the caller makes its view of, and
what the static assertions say. -/
inductive FileCall where
  | open_ (path : String) (access : AccessMode) (flags : List OpenFlag)
      (excl : Guards.openExcl (.join OpenFlag.underlying flags) = true)
      (creat : Guards.openCreat (.join OpenFlag.underlying flags) = true)
  | openPermission (path : String) (access : AccessMode) (flags : List OpenFlag)
      (permission : Permission) (excl : Guards.openExcl (.join OpenFlag.underlying flags) = true)
  | close (this : File)
  | destroy (this : File)
  | lseek (this : File) (offset : Int) (wh : FileSeek)
  | read (this : File) (data : Ptr) (length : SizeT)
  | write (this : File) (data : Ptr) (length : SizeT)

/-- What a caller sees of its call. -/
inductive Seen where
  | opened (o : Opening) (f : File)
  | closed (this : File)
  | closeFailed (this : File) (ec : ErrorCode)
  | destroyed (this : File)
  | sought (this : File) (offset : Int) (wh : FileSeek) (pos : Int)
  | got (this : File) (buffer : ByteSpan) (n : Int)
  | wrote (this : File) (buffer : ByteCspan) (n : Int)
  | failed (ec : ErrorCode)

/-- A result as its caller sees it. -/
def seen {α : Type} (f : α → Seen) : Result α → Seen
  | .error ec => .failed ec
  | .value a => f a

namespace FileCall

def run : FileCall → Sys Seen
  | .open_ path access flags _ _ => do
    let o : Opening := ⟨path, access, flags, none⟩
    return seen (.opened o) (← File.open_ path access.underlying o.joined.flags)
  | .openPermission path access flags permission _ => do
    let o : Opening := ⟨path, access, flags, some permission⟩
    return seen (.opened o) (← File.openPermission path access.underlying o.joined.flags permission)
  | .close this => do
    let ec ← this.close
    return if ec.isError then .closeFailed this ec else .closed this
  | .destroy this => do
    let _ ← Wrapper.destroy this
    return .destroyed this
  | .lseek this offset wh => do
    return seen (.sought this offset wh) (← this.lseek offset wh)
  | .read this data length => do
    let buffer := ByteSpan.make data length
    return seen (.got this buffer) (← this.read buffer)
  | .write this data length => do
    let buffer := ByteCspan.make data length
    return seen (.wrote this buffer) (← this.write buffer)

/-- The opening that the call asks for. -/
def opening : FileCall → Option Opening
  | .open_ path access flags _ _ => some ⟨path, access, flags, none⟩
  | .openPermission path access flags permission _ => some ⟨path, access, flags, some permission⟩
  | .close _ | .destroy _ | .lseek .. | .read .. | .write .. => none

/-- The first system call, and the only one but for the destructor of an empty object. -/
def syscall : FileCall → Syscall
  | .open_ path access flags _ _ => .open_ path (Opening.word ⟨path, access, flags, none⟩) none
  | .openPermission path access flags permission _ =>
    .open_ path (Opening.word ⟨path, access, flags, some permission⟩) (some permission)
  | .close this | .destroy this => .close this.fd.raw
  | .lseek this offset wh => .lseek this.fd.raw offset wh.underlying
  | .read this data length =>
    .read this.fd.raw (ByteSpan.make data length).data (ByteSpan.make data length).length
  | .write this data length =>
    .write this.fd.raw (ByteCspan.make data length).data (ByteCspan.make data length).length

/-- What the caller sees of the answer. -/
def sees (c : FileCall) (r : Response) : Seen :=
  match c with
  | .open_ path access flags _ _ =>
    seen (.opened ⟨path, access, flags, none⟩) (r.result Wrapper.ofRaw)
  | .openPermission path access flags permission _ =>
    seen (.opened ⟨path, access, flags, some permission⟩) (r.result Wrapper.ofRaw)
  | .close this =>
    if r.errorCode.isError then .closeFailed this r.errorCode else .closed this
  | .destroy this => .destroyed this
  | .lseek this offset wh => seen (.sought this offset wh) (r.result id)
  | .read this data length => seen (.got this (ByteSpan.make data length)) (r.result id)
  | .write this data length => seen (.wrote this (ByteCspan.make data length)) (r.result id)

/-- What the call leaves in `errno`: an opening that succeeds closes an empty object. -/
def leaves (c : FileCall) (r : Response) : Errno :=
  if c.opening.isSome ∧ r.ret ≠ -1 then ebadf else r.errno

end FileCall

/-! ## Execution -/

section Execution

variable {π : Type} [DecidableEq π] (umask : Word) (who : π) (choice : Choice)

theorem answer_close_null (s : RawDisk π × (Ptr → UInt8)) :
    answer umask who choice s (fdPolicy.call fdPolicy.null) = some (⟨-1, ebadf, .nothing⟩, s) := by
  cases choice <;> rfl

variable (e : Errno) (k : RawDisk π) (mem : Ptr → UInt8)

/-- A call is the kernel's answer and what the caller sees of it. -/
theorem exec_run (c : FileCall) :
    Sys.exec (answer umask who choice) e (k, mem) c.run =
      (answer umask who choice (k, mem) c.syscall).map fun x =>
        ((c.sees x.1, c.leaves x.1), x.2) := by
  cases c with
  | open_ path access flags excl creat =>
    apply (exec_handOver (answer_close_null umask who choice) _ _ (File.open_apply ..)).trans
    simp only [FileCall.sees, FileCall.leaves, FileCall.opening, Option.isSome_some, true_and]
    rfl
  | openPermission path access flags permission excl =>
    apply (exec_handOver (answer_close_null umask who choice) _ _
      (File.openPermission_apply ..)).trans
    simp only [FileCall.sees, FileCall.leaves, FileCall.opening, Option.isSome_some, true_and]
    rfl
  | close this =>
    exact Sys.exec_one _ _
      (fun ec => if ec.isError then Seen.closeFailed this ec else .closed this)
      (commonCall_apply _ e)
  | destroy this =>
    exact Sys.exec_one _ _ (fun _ => Seen.destroyed this) (Wrapper.destroy_apply this e)
  | lseek this offset wh =>
    exact Sys.exec_one _ _ (seen (.sought this offset wh))
      (translated_apply (fun r => r.ret) _ e)
  | read this data length =>
    exact Sys.exec_one _ _ (seen (.got this (ByteSpan.make data length)))
      (commonResultCall_apply _ e)
  | write this data length =>
    exact Sys.exec_one _ _ (seen (.wrote this (ByteCspan.make data length)))
      (commonResultCall_apply _ e)

end Execution

/-! ## Well-formed openings -/

/-- POSIX: `O_EXCL` comes with `O_CREAT`, and `O_CREAT` with a mode. -/
structure OpenWellFormed (flags : Word) (mode : Option Word) : Prop where
  excl : (EnumFlag.mk flags).has OpenFlag.excl.underlying = true →
    (EnumFlag.mk flags).has OpenFlag.creat.underlying = true
  creat : (EnumFlag.mk flags).has OpenFlag.creat.underlying = true → mode.isSome

/-- The flags of an opening are well formed when the flags that were joined are. -/
theorem Opening.wellFormed (o : Opening) {mode : Option Word}
    (hexcl : .excl ∈ o.flags → .creat ∈ o.flags) (hcreat : .creat ∈ o.flags → mode.isSome) :
    OpenWellFormed o.word mode where
  excl h := by
    rw [o.has_word_iff (by simp [tested])] at h ⊢
    exact hexcl h
  creat h := by
    rw [o.has_word_iff (by simp [tested])] at h
    exact hcreat h

/-- The call that an opening makes is well formed. -/
theorem wellFormed_syscall {c : FileCall} {path : String} {flags : Word} {mode : Option Word}
    (h : c.syscall = .open_ path flags mode) : OpenWellFormed flags mode := by
  cases c with
  | open_ path access flags excl creat =>
    cases h
    have hnone : .creat ∉ flags := (Guards.openCreat_join flags).mp creat
    apply Opening.wellFormed
    · exact (Guards.openExcl_join flags).mp excl
    · exact fun hcreat => absurd hcreat hnone
  | openPermission path access flags permission excl =>
    cases h
    apply Opening.wellFormed
    · exact (Guards.openExcl_join flags).mp excl
    · exact fun _ => rfl
  | _ => cases h

/-- The calls on every path: the one of the function, and destructors of empty objects. -/
theorem paths_run (c : FileCall) (e : Errno) :
    (c.run e).Paths fun h _ => ∀ q ∈ h, q.1 = c.syscall ∨ q.1 = .close (-1) := by
  have hone : ∀ {α β : Type} (g : α → β) (p : Sys α) (f : Response → α),
      p e = .call c.syscall (fun r => .done (f r, r.errno)) →
      ((do return g (← p) : Sys β) e).Paths
        fun h _ => ∀ q ∈ h, q.1 = c.syscall ∨ q.1 = .close (-1) := by
    intro α β g p f hp
    rw [Sys.return_apply, hp]
    intro r q hq
    rw [List.mem_singleton.mp hq]
    exact .inl rfl
  have hopen : ∀ {β : Type} (g : Result File → β) (p : Sys (Result File)),
      p e = handOver File c.syscall (-1) id 1 →
      ((do return g (← p) : Sys β) e).Paths
        fun h _ => ∀ q ∈ h, q.1 = c.syscall ∨ q.1 = .close (-1) := by
    intro β g p hp
    rw [Sys.return_apply, hp]
    intro r
    dsimp only
    split
    · intro q hq
      rw [List.mem_singleton.mp hq]
      exact .inl rfl
    · intro r' q hq
      rcases List.mem_cons.mp hq with rfl | hq
      · exact .inl rfl
      · rw [List.mem_singleton.mp hq]
        exact .inr rfl
  cases c with
  | open_ path access flags excl creat => exact hopen _ _ (File.open_apply ..)
  | openPermission path access flags permission excl =>
    exact hopen _ _ (File.openPermission_apply ..)
  | close this => exact hone _ _ _ (commonCall_apply _ e)
  | destroy this => exact hone _ _ _ (Wrapper.destroy_apply this e)
  | lseek this offset wh => exact hone _ _ _ (translated_apply (fun r => r.ret) _ e)
  | read this data length => exact hone _ _ _ (commonResultCall_apply _ e)
  | write this data length => exact hone _ _ _ (commonResultCall_apply _ e)

/-- Every `::open` that a function of `file` makes is well formed, and the static
assertions refuse no opening that is. -/
theorem openings_well_formed :
    (∀ (c : FileCall) (e : Errno), (c.run e).Paths fun h _ => ∀ q ∈ h, ∀ path flags mode,
      q.1 = .open_ path flags mode → OpenWellFormed flags mode) ∧
    ∀ o : Opening, OpenWellFormed o.word o.permission ↔
      Guards.openExcl o.joined = true ∧ (o.permission = none → Guards.openCreat o.joined = true) := by
  constructor
  · intro c e
    apply (paths_run c e).mono
    intro h _ hcalls q hq path flags mode hopen
    rcases hcalls q hq with hcall | hnull
    · exact wellFormed_syscall (hcall.symm.trans hopen)
    · cases hnull.symm.trans hopen
  · intro o
    have hexcl := Guards.openExcl_join o.flags
    have hcreat := Guards.openCreat_join o.flags
    constructor
    · intro h
      have hexcl' := h.excl
      have hcreat' := h.creat
      rw [o.has_word_iff (by simp [Opening.tested]), o.has_word_iff (by simp [Opening.tested])]
        at hexcl'
      rw [o.has_word_iff (by simp [Opening.tested])] at hcreat'
      refine ⟨hexcl.mpr hexcl', fun hnone => hcreat.mpr fun hmem => ?_⟩
      have hsome := hcreat' hmem
      rw [hnone] at hsome
      cases hsome
    · rintro ⟨hexcl', hcreat'⟩
      apply o.wellFormed (hexcl.mp hexcl')
      intro hmem
      cases hpermission : o.permission with
      | none => exact absurd hmem (hcreat.mp (hcreat' hpermission))
      | some permission => rfl

/-! ## What the kernel does -/

section Answers

variable {π : Type} [DecidableEq π]

/-- A call that the kernel carried out. -/
inductive Done (umask : Word) (who : π) (k : RawDisk π) (mem : Ptr → UInt8) :
    Syscall → Response → RawDisk π → (Ptr → UInt8) → Prop where
  | opened {path : String} {flags : Word} {mode : Option Word} {noise : Errno}
      {fd file new : Nat} {k' : RawDisk π} :
      k.open_ umask who path flags mode fd file new = some k' →
      Done umask who k mem (.open_ path flags mode) ⟨fd, noise, .nothing⟩ k' mem
  | closed {fd : Int} {noise : Errno} : (k.descs who fd).isSome →
      Done umask who k mem (.close fd) ⟨0, noise, .nothing⟩ (k.refer who fd none) mem
  | sought {fd offset whence pos : Int} {noise : Errno} {k' : RawDisk π} :
      k.lseek who fd offset whence = some (pos, k') →
      Done umask who k mem (.lseek fd offset whence) ⟨pos, noise, .nothing⟩ k' mem
  | got {fd : Int} {buf : Ptr} {count : SizeT} {n : Nat} {noise : Errno} {bytes : List UInt8}
      {k' : RawDisk π} :
      k.read who fd count.toNat n = some (bytes, k') →
      Done umask who k mem (.read fd buf count) ⟨bytes.length, noise, .nothing⟩ k'
        (Cells.write mem buf bytes)
  | wrote {fd : Int} {buf : Ptr} {count : SizeT} {n : Nat} {noise : Errno} {k' : RawDisk π} :
      k.write who fd (Cells.read mem 1 buf count.toNat) n = some k' →
      Done umask who k mem (.write fd buf count) ⟨n, noise, .nothing⟩ k' mem

variable {umask : Word} {who : π} {choice : Choice} {k k' : RawDisk π} {mem mem' : Ptr → UInt8}
  {c : Syscall} {r : Response}

/-- A close may release its descriptor when it fails, and no other call changes anything. -/
theorem failed_cases (k : RawDisk π) (who : π) (released : Bool) (c : Syscall) :
    k.failed who released c = k ∨
      ∃ fd, c = .close fd ∧ k.failed who released c = k.refer who fd none := by
  cases c with
  | close fd =>
    cases released with
    | false => exact .inl rfl
    | true => exact .inr ⟨fd, rfl, rfl⟩
  | _ => exact .inl rfl

/-- A call fails with an error and changes nothing, unless it is a close that releases its
descriptor, or it is carried out. -/
theorem answer_cases (h : answer umask who choice (k, mem) c = some (r, k', mem')) :
    (∃ err, err ≠ 0 ∧ r = ⟨-1, err, .nothing⟩ ∧ mem' = mem ∧
      (k' = k ∨ ∃ fd, c = .close fd ∧ k' = k.refer who fd none)) ∨
      Done umask who k mem c r k' mem' := by
  simp only [answer] at h
  split at h
  · cases h
    exact .inl ⟨ebadf, by decide, rfl, rfl, .inl rfl⟩
  · split at h
    · rename_i hfail
      cases h
      exact .inl ⟨_, hfail.2, rfl, rfl, failed_cases ..⟩
    · cases h
  · obtain ⟨k₁, hopen, heq⟩ := Option.map_eq_some_iff.mp h
    cases heq
    exact .inr (.opened hopen)
  · split at h
    · rename_i hfd
      cases h
      exact .inr (.closed hfd)
    · cases h
  · obtain ⟨x, hseek, heq⟩ := Option.map_eq_some_iff.mp h
    cases heq
    exact .inr (.sought hseek)
  · obtain ⟨x, hread, heq⟩ := Option.map_eq_some_iff.mp h
    cases heq
    exact .inr (.got hread)
  · obtain ⟨k₁, hwrite, heq⟩ := Option.map_eq_some_iff.mp h
    cases heq
    exact .inr (.wrote hwrite)
  · cases h

end Answers

end Files
