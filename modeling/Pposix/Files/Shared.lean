-- SUMMARY: Programs that use `file` objects on one disk, in any interleaving: their log replays on the file store.
import Pposix.Base.Replay
import Pposix.Files.Calls
import Pposix.Views.Slices

/-!
# Processes that share files

Any number of processes open, read, write, position, close and destroy files, each through
its own `file` objects, while other code duplicates descriptors and removes names. What the
callers see replays on the file store, and a read is the only call that changes memory.
-/

namespace Files

/-! ## Entries -/

section Entries

variable {π : Type} [DecidableEq π]

omit [DecidableEq π] in
/-- Where the description of a descriptor stands. -/
def RawDisk.locate (k : RawDisk π) (who : π) (fd : Int) : Option Place := do
  let t ← k.descs who fd
  let f ← k.files t
  return ⟨t, f.inode, f.offset⟩

omit [DecidableEq π] in
/-- Where a write through a descriptor starts. -/
def RawDisk.locateWrite (k : RawDisk π) (who : π) (fd : Int) : Option Place :=
  (k.find who fd).map fun f => f.place (f.start (Flags.access f.open_.flags).appends)

omit [DecidableEq π] in
/-- The descriptor is open in `k` and not in `k'`. -/
def RawDisk.released (k k' : RawDisk π) (who : π) (fd : Int) : Bool :=
  (k.descs who fd).isSome && (k'.descs who fd).isNone

omit [DecidableEq π] in
/-- The entry for a call from the disk `k` and the memory `mem` to `k'` and `mem'`. -/
def Seen.entry (who : π) (k k' : RawDisk π) (mem mem' : Ptr → UInt8) : Seen → Entry π
  | .opened o f =>
    .opened who o f.fd.raw ((k'.locate who f.fd.raw).getD {}) (k.names o.path).isNone
  | .closed this => .closed who this.fd.raw
  | .closeFailed this ec => .closeFailed who this.fd.raw ec (k.released k' who this.fd.raw)
  | .destroyed this => .destroyed who this.fd.raw (k.released k' who this.fd.raw)
  | .sought this offset wh pos =>
    .sought who this.fd.raw offset wh pos ((k.locate who this.fd.raw).getD {})
  | .got this buffer n =>
    .got who this.fd.raw buffer.length.toNat (Cells.read mem' 1 buffer.data n.toNat)
      ((k.locate who this.fd.raw).getD {})
  | .wrote this buffer n =>
    .wrote who this.fd.raw (buffer.elems mem 1) n.toNat
      ((k.locateWrite who this.fd.raw).getD {})
  | .failed ec => .failed who ec

/-! ## One call -/

variable {umask : π → Word} {who : π} {choice : Choice} {k k' : RawDisk π}
  {mem mem' : Ptr → UInt8} {fd : Int}

/-- The rights that the mask of each process takes away. -/
def masked (umask : π → Word) (who : π) : Set (FileClass × Right) :=
  Permission.layout.denote (umask who)

omit [DecidableEq π] in
theorem locate_of_find {f : Found Word Word} (h : k.find who fd = some f) :
    k.locate who fd = some (f.place f.open_.offset) := by
  simp only [Disk.find, Option.bind_eq_bind, Option.bind_eq_some_iff] at h
  obtain ⟨t, ht, x, hx, i, -, hf⟩ := h
  cases hf
  simp [RawDisk.locate, ht, hx, Found.place]

omit [DecidableEq π] in
theorem abs_find {f : Found Word Word} (h : k.find who fd = some f) :
    k.abs.find who fd = some (f.map Flags.access Permission.layout.denote) := by
  rw [RawDisk.abs, Disk.find_map, h]
  rfl

theorem locate_attach (k : RawDisk π) (who : π) (fd : Int) (t i : Nat) (flags : Word) :
    RawDisk.locate (k.attach who fd t i flags) who fd = some ⟨t, i, 0⟩ := by
  simp [RawDisk.locate, Disk.attach, Disk.refer]

theorem open_moves {o : Opening} {fd file new : Nat}
    (h : k.open_ (umask who) who o.path o.word o.permission fd file new = some k') :
    ∃ place, k'.locate who fd = some place ∧
      Moves (masked umask) k.abs (.opened who o fd place (k.names o.path).isNone) k'.abs := by
  unfold RawDisk.open_ at h
  split at h
  · rename_i hfree
    obtain ⟨hmode, hdir, hfd, hfile⟩ := hfree
    have hdir' : .directory ∉ o.flags := fun hmem => hdir (o.directory_word.mpr hmem)
    obtain ⟨⟨i, k₁⟩, hresolve, rfl⟩ := Option.map_eq_some_iff.mp h
    refine ⟨_, locate_attach .., ?_⟩
    have hattach : RawDisk.abs (k₁.attach who fd file i o.word) =
        k₁.abs.attach who fd file i o.stream := by
      rw [RawDisk.abs, Disk.map_attach, o.access_word]
      rfl
    have hfiles : k.abs.files file = none := by simp [RawDisk.abs, Disk.map, hfile]
    rw [hattach]
    unfold RawDisk.resolve at hresolve
    split at hresolve
    · rename_i j hname
      split at hresolve
      · cases hresolve
      · rename_i hexcl
        cases hresolve
        have habs : RawDisk.abs (if Flags.truncates o.word then k.setData i [] else k) =
            if o.Truncates then k.abs.setData i [] else k.abs := by
          simp only [o.truncates_word]
          split
          · exact Disk.map_setData ..
          · rfl
        rw [habs, hname]
        exact .found hfd hfiles hdir' hname fun he => hexcl (o.excludes_word.mpr he)
    · rename_i hname
      split at hresolve
      · rename_i permission hpermission
        split at hresolve
        · rename_i hnew
          cases hresolve
          have hinodes : k.abs.inodes new = none := by simp [RawDisk.abs, Disk.map, hnew.2]
          have hmask : Permission.layout.denote (permission &&& ~~~(umask who)) =
              Permission.layout.denote permission \ masked umask who := by
            ext x
            have hlt := Permission.layout.bit_lt x
            simp [Layout.mem_denote, masked, hlt]
          have habs : RawDisk.abs (k.create o.path new (permission &&& ~~~(umask who))) =
              k.abs.create o.path new (Permission.layout.denote permission \ masked umask who) := by
            rw [← hmask]
            exact Disk.map_create ..
          rw [habs, hname]
          exact .made hfd hfiles hdir' hname hinodes (o.creates_word.mp hnew.1) hpermission
        · cases hresolve
      · cases hresolve
  · cases h

theorem lseek_moves {offset pos : Int} {wh : FileSeek}
    (h : k.lseek who fd offset wh.underlying = some (pos, k')) :
    0 ≤ pos ∧ ∃ place, k.locate who fd = some place ∧
      Moves (masked umask) k.abs (.sought who fd offset wh pos place) k'.abs := by
  simp only [RawDisk.lseek, Option.bind_eq_bind, Option.bind_eq_some_iff] at h
  obtain ⟨f, hf, base, hbase, hpos⟩ := h
  split at hpos
  · rename_i hle
    cases hpos
    refine ⟨hle, _, locate_of_find hf, ?_⟩
    have habs : RawDisk.abs (k.seek f.file (base + offset).toNat) =
        k.abs.seek f.file (base + offset).toNat := Disk.map_seek ..
    rw [habs]
    exact .sought (abs_find hf) hbase hle
  · cases hpos

theorem read_moves {capacity n : Nat} {bytes : List UInt8}
    (h : k.read who fd capacity n = some (bytes, k')) :
    ∃ place, k.locate who fd = some place ∧
      Moves (masked umask) k.abs (.got who fd capacity bytes place) k'.abs := by
  simp only [RawDisk.read, Option.bind_eq_bind, Option.bind_eq_some_iff] at h
  obtain ⟨f, hf, hread⟩ := h
  split at hread
  · rename_i hcount
    obtain ⟨hreads, hle, hempty⟩ := hcount
    cases hread
    refine ⟨_, locate_of_find hf, ?_⟩
    have hlen : ((f.ahead capacity).take n).length = n := List.length_take_of_le hle
    have habs : RawDisk.abs (k.seek f.file (f.open_.offset + n)) =
        k.abs.seek f.file (f.open_.offset + ((f.ahead capacity).take n).length) := by
      rw [hlen]
      exact Disk.map_seek ..
    rw [habs]
    apply Moves.got (abs_find hf) hreads (List.take_prefix n _)
    intro hnil
    exact hempty (hlen.symm.trans (congrArg List.length hnil))
  · cases hread

theorem write_moves {given : List UInt8} {n : Nat} (h : k.write who fd given n = some k') :
    ∃ place, k.locateWrite who fd = some place ∧
      Moves (masked umask) k.abs (.wrote who fd given n place) k'.abs := by
  simp only [RawDisk.write, Option.bind_eq_bind, Option.bind_eq_some_iff] at h
  obtain ⟨f, hf, hwrite⟩ := h
  split at hwrite
  · rename_i hcount
    obtain ⟨hwrites, hle, hempty⟩ := hcount
    cases hwrite
    let start := f.start (Flags.access f.open_.flags).appends
    refine ⟨f.place start, by rw [RawDisk.locateWrite, hf]; rfl, ?_⟩
    have habs : RawDisk.abs (k.writeAt f start (given.take n)) =
        k.abs.writeAt (f.map Flags.access Permission.layout.denote) start (given.take n) :=
      Disk.map_writeAt ..
    rw [habs]
    exact .wrote (abs_find hf) hwrites hle hempty
  · cases hwrite

omit [DecidableEq π] in
theorem released_self (k : RawDisk π) (who : π) (fd : Int) : k.released k who fd = false := by
  unfold RawDisk.released
  cases k.descs who fd <;> rfl

theorem released_refer (k : RawDisk π) (who : π) (fd : Int) :
    RawDisk.released k (k.refer who fd none) who fd = (k.descs who fd).isSome := by
  simp [RawDisk.released, Disk.refer]

omit [DecidableEq π] in
theorem sees_close_fail (this : File) {err : Errno} (herr : err ≠ 0) :
    (FileCall.close this).sees ⟨-1, err, .nothing⟩ = .closeFailed this ⟨err⟩ := by
  simp [FileCall.sees, Response.errorCode_fail, ErrorCode.isError_mk herr]

/-- A call that fails and leaves the disk as it is. -/
theorem fail_moves (c : FileCall) {err : Errno} (herr : err ≠ 0) :
    Moves (masked umask) k.abs ((c.sees ⟨-1, err, .nothing⟩).entry who k k mem mem) k.abs := by
  cases c with
  | close this =>
    rw [sees_close_fail this herr, Seen.entry, released_self]
    exact .closeFailed (ErrorCode.isError_mk herr)
  | destroy this =>
    rw [FileCall.sees, Seen.entry, released_self]
    exact .destroyFailed
  | _ => exact .failed (ErrorCode.isError_mk herr)

/-- A close that fails and releases its descriptor. -/
theorem release_moves {c : FileCall} (hc : c.syscall = .close fd) {err : Errno} (herr : err ≠ 0) :
    Moves (masked umask) k.abs
      ((c.sees ⟨-1, err, .nothing⟩).entry who k (k.refer who fd none) mem mem)
      (RawDisk.abs (k.refer who fd none)) := by
  cases hfd : k.descs who fd with
  | none =>
    rw [Disk.refer_none hfd]
    exact fail_moves c herr
  | some t =>
    have hopen : (k.descs who fd).isSome = true := by rw [hfd, Option.isSome_some]
    cases c with
    | close this =>
      cases hc
      rw [sees_close_fail this herr, Seen.entry, released_refer, hopen]
      exact .closeReleased (ErrorCode.isError_mk herr) hopen
    | destroy this =>
      cases hc
      rw [FileCall.sees, Seen.entry, released_refer, hopen]
      exact .destroyed hopen
    | _ => cases hc

/-- What the caller sees of its call is what the call did to the store. -/
theorem call_moves {c : FileCall} {r : Response}
    (h : answer (umask who) who choice (k, mem) c.syscall = some (r, k', mem')) :
    Moves (masked umask) k.abs ((c.sees r).entry who k k' mem mem') k'.abs := by
  rcases answer_cases h with ⟨err, herr, rfl, rfl, rfl | ⟨fd, hc, rfl⟩⟩ | hdone
  · exact fail_moves c herr
  · exact release_moves hc herr
  · have hopened : ∀ (o : Opening) (fd file new : Nat) (noise : Errno),
        k.open_ (umask who) who o.path o.word o.permission fd file new = some k' →
        Moves (masked umask) k.abs
          ((seen (.opened o) ((Response.mk fd noise .nothing).result Wrapper.ofRaw)).entry who k k'
            mem mem') k'.abs := by
      intro o fd file new noise hopen
      obtain ⟨place, hplace, hmoves⟩ := open_moves hopen
      have hfd : ¬ (fd : Int) = -1 := by omega
      have hraw : (Wrapper.ofRaw (fd : Int) : File).fd.raw = fd := rfl
      simp only [Response.result, if_neg hfd, seen, Seen.entry, hraw, hplace, Option.getD_some]
      exact hmoves
    cases c with
    | open_ path access flags excl creat =>
      cases hdone with
      | opened hopen => exact hopened ⟨path, access, flags, none⟩ _ _ _ _ hopen
    | openPermission path access flags permission excl =>
      cases hdone with
      | opened hopen => exact hopened ⟨path, access, flags, some permission⟩ _ _ _ _ hopen
    | close this =>
      cases hdone with
      | closed hfd => exact .closed hfd
    | destroy this =>
      cases hdone with
      | closed hfd =>
        rw [FileCall.sees, Seen.entry, released_refer, hfd]
        exact .destroyed hfd
    | lseek this offset wh =>
      cases hdone with
      | @sought _ _ _ pos _ _ hseek =>
        obtain ⟨hpos, place, hplace, hmoves⟩ := lseek_moves hseek
        have hne : ¬ pos = -1 := by omega
        simp only [FileCall.sees, Response.result, if_neg hne, seen, Seen.entry, hplace,
          Option.getD_some]
        exact hmoves
    | read this data length =>
      cases hdone with
      | @got _ _ _ _ _ bytes _ hread =>
        obtain ⟨place, hplace, hmoves⟩ := read_moves hread
        have hne : ¬ (bytes.length : Int) = -1 := by omega
        simp only [FileCall.sees, Response.result, if_neg hne, seen, Seen.entry, hplace,
          Option.getD_some, id, Int.toNat_natCast, Cells.read_write _ _ _ (Nat.le_refl _),
          List.take_length]
        exact hmoves
    | write this data length =>
      cases hdone with
      | @wrote _ _ _ n _ _ hwrite =>
        obtain ⟨place, hplace, hmoves⟩ := write_moves hwrite
        have hne : ¬ (n : Int) = -1 := by omega
        simp only [FileCall.sees, Response.result, if_neg hne, seen, Seen.entry, hplace,
          Option.getD_some, id, Int.toNat_natCast]
        exact hmoves

/-- A call changes memory only where a read puts its bytes. -/
theorem call_memory {c : FileCall} {r : Response}
    (h : answer (umask who) who choice (k, mem) c.syscall = some (r, k', mem')) (q : Ptr) :
    mem' q = mem q ∨ ∃ this data length, c = .read this data length ∧
      ∃ bytes place, (c.sees r).entry who k k' mem mem' =
          .got who this.fd.raw (ByteSpan.make data length).length.toNat bytes place ∧
        data ≤ q ∧ q < data + bytes.length := by
  rcases answer_cases h with ⟨err, herr, rfl, rfl, -⟩ | hdone
  · exact .inl rfl
  · cases c with
    | read this data length =>
      cases hdone with
      | @got _ _ _ _ _ bytes _ hread =>
        by_cases hq : data ≤ q ∧ q < data + bytes.length
        · refine .inr ⟨this, data, length, rfl, bytes, (k.locate who this.fd.raw).getD {}, ?_, hq⟩
          have hne : ¬ (bytes.length : Int) = -1 := by omega
          simp only [FileCall.sees, Response.result, if_neg hne, seen, Seen.entry, id,
            Int.toNat_natCast, Cells.read_write _ _ _ (Nat.le_refl _), List.take_length]
        · exact .inl (Cells.write_outside _ _ _ hq)
    | _ =>
      cases hdone
      exact .inl rfl

end Entries

/-! ## Runs -/

section Runs

variable {π : Type} [DecidableEq π]

structure State (π : Type) where
  disk : RawDisk π
  mem : π → Ptr → UInt8
  errno : π → Errno
  log : List (Entry π)

def State.init (disk : RawDisk π) (mem : π → Ptr → UInt8) (errno : π → Errno) : State π :=
  ⟨disk, mem, errno, []⟩

inductive Action (π : Type) where
  /-- A process writes to its memory. -/
  | store (who : π) (mem : Ptr → UInt8)
  | call (who : π) (c : FileCall) (choice : Choice)
  | share (who : π) (fd : Int) (who' : π) (fd' : Int)
  | unlink (path : String)

def step (umask : π → Word) (s : State π) : Action π → Option (State π)
  | .store who mem => some { s with mem := Function.update s.mem who mem }
  | .call who c choice => do
    let x ← Sys.exec (answer (umask who) who choice) (s.errno who) (s.disk, s.mem who) c.run
    let ((seen, err), (disk, mem)) := x
    return {
      disk := disk
      mem := Function.update s.mem who mem
      errno := Function.update s.errno who err
      log := s.log ++ [seen.entry who s.disk disk (s.mem who) mem] }
  | .share who fd who' fd' =>
    if (s.disk.descs who fd).isSome ∧ s.disk.descs who' fd' = none then
      some { s with
        disk := s.disk.refer who' fd' (s.disk.descs who fd)
        log := s.log ++ [.shared who fd who' fd'] }
    else none
  | .unlink path =>
    some { s with disk := s.disk.unlink path, log := s.log ++ [.unlinked path] }

variable {umask : π → Word} {s s' : State π}

theorem step_call_cases {who : π} {c : FileCall} {choice : Choice}
    (h : step umask s (.call who c choice) = some s') :
    ∃ r disk mem, answer (umask who) who choice (s.disk, s.mem who) c.syscall =
        some (r, disk, mem) ∧
      s' = ⟨disk, Function.update s.mem who mem, Function.update s.errno who (c.leaves r),
        s.log ++ [(c.sees r).entry who s.disk disk (s.mem who) mem]⟩ := by
  simp only [step, exec_run] at h
  cases ha : answer (umask who) who choice (s.disk, s.mem who) c.syscall with
  | none =>
    rw [ha] at h
    cases h
  | some x =>
    rw [ha] at h
    cases h
    exact ⟨_, _, _, rfl, rfl⟩

/-- A step of the machine is a step of the store with an entry of its own, or none. -/
theorem step_logs {a : Action π} (h : step umask s a = some s') :
    Replays.Logs (Moves (masked umask)) (fun s => s.disk.abs) State.log s s' := by
  cases a with
  | store who mem =>
    cases h
    exact .inl ⟨rfl, rfl⟩
  | call who c choice =>
    obtain ⟨r, disk, mem, hanswer, rfl⟩ := step_call_cases h
    exact .inr ⟨_, rfl, call_moves hanswer⟩
  | share who fd who' fd' =>
    simp only [step] at h
    split at h
    · rename_i hfree
      cases h
      exact .inr ⟨_, rfl, .shared hfree.1 hfree.2⟩
    · cases h
  | unlink path =>
    cases h
    exact .inr ⟨_, rfl, .unlinked⟩

/-- In a step, the memory of a process changes where it writes itself, or where its read
puts the bytes that the log shows. -/
def MemoryFramed (umask : π → Word) : Prop :=
  ∀ (s : State π) a s', step umask s a = some s' → ∀ who q, s'.mem who q = s.mem who q ∨
    (∃ mem, a = .store who mem) ∨
    ∃ this data length choice, a = .call who (.read this data length) choice ∧
      ∃ bytes place, s'.log = s.log ++
          [.got who this.fd.raw (ByteSpan.make data length).length.toNat bytes place] ∧
        data ≤ q ∧ q < data + bytes.length

theorem memory_framed (umask : π → Word) : MemoryFramed umask := by
  intro s a s' h who q
  cases a with
  | store p mem =>
    cases h
    by_cases hp : who = p
    · exact .inr (.inl ⟨mem, hp ▸ rfl⟩)
    · exact .inl (congrFun (Function.update_of_ne hp ..) q)
  | call p c choice =>
    obtain ⟨r, disk, mem, hanswer, rfl⟩ := step_call_cases h
    by_cases hp : who = p
    · subst hp
      simp only [Function.update_self]
      rcases call_memory hanswer q with hkept | ⟨this, data, length, rfl, bytes, place, he, hq⟩
      · exact .inl hkept
      · exact .inr (.inr ⟨this, data, length, choice, rfl, bytes, place, by rw [he], hq⟩)
    · exact .inl (congrFun (Function.update_of_ne hp ..) q)
  | share p fd p' fd' =>
    simp only [step] at h
    split at h
    · cases h
      exact .inl rfl
    · cases h
  | unlink path =>
    cases h
    exact .inl rfl

theorem replays_always (umask : π → Word) (disk : RawDisk π) (mem : π → Ptr → UInt8)
    (errno : π → Errno) (as : List (Action π)) :
    Machine.Always (step umask)
      (fun s => Replays (Moves (masked umask)) disk.abs s.log s.disk.abs)
      (State.init disk mem errno) as :=
  Replays.always (I := fun _ => True) (s := State.init disk mem errno)
    (fun _ h => ⟨trivial, step_logs h⟩) trivial rfl as

/-- In every run what the callers saw replays on the file store, from what the disk held at
the start to what it holds now, and reads are the only calls that change memory. -/
theorem run_replays (umask : π → Word) (disk : RawDisk π) (mem : π → Ptr → UInt8)
    (errno : π → Errno) (as : List (Action π)) :
    Machine.Always (step umask)
        (fun s => Replays (Moves (masked umask)) disk.abs s.log s.disk.abs)
        (State.init disk mem errno) as ∧
      MemoryFramed umask :=
  ⟨replays_always umask disk mem errno as, memory_framed umask⟩

end Runs

end Files
