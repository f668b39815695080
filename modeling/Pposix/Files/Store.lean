-- SUMMARY: The abstract file store: what the callers of `file` see of a disk, and how each entry of their log changes it.
import Pposix.Calls.Guards
import Pposix.Files.Disk
import Pposix.Files.Permissions

/-!
# The file store

The store is a disk whose flags and modes are decoded: a description has what its opener
asked for by name, and a file has a set of rights. An entry of the log says what a caller
did and what it got, and each kind of entry changes the store in one way.
-/

/-- The access modes that allow reading. -/
def AccessMode.reads : AccessMode → Bool
  | .read | .readWrite => true
  | .exec | .write | .accmode => false

/-- The access modes that allow writing. -/
def AccessMode.writes : AccessMode → Bool
  | .write | .readWrite => true
  | .exec | .read | .accmode => false

namespace Files

/-! ## Openings -/

/-- What a caller asks of `file::open`: flags that it joins, and a permission for the
overload that takes one. -/
structure Opening where
  path : String
  access : AccessMode
  flags : List OpenFlag
  permission : Option Permission

namespace Opening

/-- The argument of `open_flag<OpenFlags>`. -/
def joined (o : Opening) : EnumFlag 32 := .join OpenFlag.underlying o.flags

/-- The flags that reach the kernel. -/
def word (o : Opening) : Word := o.access.underlying ||| o.joined.flags

def Creates (o : Opening) : Prop := .creat ∈ o.flags ∧ o.access ≠ .exec

def Excludes (o : Opening) : Prop := o.Creates ∧ .excl ∈ o.flags

def Truncates (o : Opening) : Prop := .truncate ∈ o.flags ∧ o.access ≠ .exec

instance (o : Opening) : Decidable o.Truncates := inferInstanceAs (Decidable (_ ∧ _))

/-- What the description will allow. -/
def stream (o : Opening) : Access where
  reads := o.access.reads
  writes := o.access.writes
  appends := .append ∈ o.flags

end Opening

/-! ## Entries -/

/-- What a call or other code did. The places are for the statements, and so is whether an
opening made its file and whether a descriptor was released: no code reads them. -/
inductive Entry (π : Type) where
  | opened (who : π) (o : Opening) (fd : Int) (place : Place) (made : Bool)
  | closed (who : π) (fd : Int)
  | closeFailed (who : π) (fd : Int) (ec : ErrorCode) (released : Bool)
  /-- The destructor of an object reports no error. -/
  | destroyed (who : π) (fd : Int) (released : Bool)
  | sought (who : π) (fd offset : Int) (wh : FileSeek) (pos : Int) (place : Place)
  /-- A read into a buffer gave these bytes. -/
  | got (who : π) (fd : Int) (capacity : Nat) (bytes : List UInt8) (place : Place)
  /-- The first `n` bytes of those that were given were written. -/
  | wrote (who : π) (fd : Int) (given : List UInt8) (n : Nat) (place : Place)
  | failed (who : π) (ec : ErrorCode)
  /-- Other code made a second descriptor of a description, as `dup` and `fork` do. -/
  | shared (who : π) (fd : Int) (who' : π) (fd' : Int)
  | unlinked (path : String)

/-! ## The store -/

abbrev Store (π : Type) := Disk π Access (Set (FileClass × Right))

section Moves

variable {π : Type} [DecidableEq π]

/-- What an entry of the log does to the store. -/
inductive Moves (umask : π → Set (FileClass × Right)) (s : Store π) : Entry π → Store π → Prop where
  | found {who : π} {o : Opening} {fd : Int} {t i : Nat} :
      s.descs who fd = none → s.files t = none → .directory ∉ o.flags →
      s.names o.path = some i → ¬ o.Excludes →
      Moves umask s (.opened who o fd ⟨t, i, 0⟩ false)
        ((if o.Truncates then s.setData i [] else s).attach who fd t i o.stream)
  | made {who : π} {o : Opening} {fd : Int} {t i : Nat} {permission : Permission} :
      s.descs who fd = none → s.files t = none → .directory ∉ o.flags →
      s.names o.path = none → s.inodes i = none → o.Creates → o.permission = some permission →
      Moves umask s (.opened who o fd ⟨t, i, 0⟩ true)
        ((s.create o.path i (Permission.layout.denote permission \ umask who)).attach who fd t i
          o.stream)
  | closed {who : π} {fd : Int} :
      (s.descs who fd).isSome → Moves umask s (.closed who fd) (s.refer who fd none)
  | closeFailed {who : π} {fd : Int} {ec : ErrorCode} :
      ec.isError → Moves umask s (.closeFailed who fd ec false) s
  | closeReleased {who : π} {fd : Int} {ec : ErrorCode} : ec.isError → (s.descs who fd).isSome →
      Moves umask s (.closeFailed who fd ec true) (s.refer who fd none)
  | destroyed {who : π} {fd : Int} :
      (s.descs who fd).isSome → Moves umask s (.destroyed who fd true) (s.refer who fd none)
  | destroyFailed {who : π} {fd : Int} : Moves umask s (.destroyed who fd false) s
  | sought {who : π} {fd offset : Int} {wh : FileSeek} {base : Nat} {f : Found _ _} :
      s.find who fd = some f → f.origin wh.underlying = some base → 0 ≤ base + offset →
      Moves umask s (.sought who fd offset wh (base + offset) (f.place f.open_.offset))
        (s.seek f.file (base + offset).toNat)
  | got {who : π} {fd : Int} {capacity : Nat} {bytes : List UInt8} {f : Found _ _} :
      s.find who fd = some f → f.open_.flags.reads → bytes <+: f.ahead capacity →
      (bytes = [] → f.ahead capacity = []) →
      Moves umask s (.got who fd capacity bytes (f.place f.open_.offset))
        (s.seek f.file (f.open_.offset + bytes.length))
  | wrote {who : π} {fd : Int} {given : List UInt8} {n : Nat} {f : Found _ _} :
      s.find who fd = some f → f.open_.flags.writes → n ≤ given.length → (n = 0 → given = []) →
      Moves umask s (.wrote who fd given n (f.place (f.start f.open_.flags.appends)))
        (s.writeAt f (f.start f.open_.flags.appends) (given.take n))
  | failed {who : π} {ec : ErrorCode} : ec.isError → Moves umask s (.failed who ec) s
  | shared {who who' : π} {fd fd' : Int} :
      (s.descs who fd).isSome → s.descs who' fd' = none →
      Moves umask s (.shared who fd who' fd') (s.refer who' fd' (s.descs who fd))
  | unlinked {path : String} : Moves umask s (.unlinked path) (s.unlink path)

end Moves

/-! ## Decoding a disk -/

namespace Disk

variable {π F F' M M' : Type}

/-- The disk with other flags and modes. -/
def map (f : F → F') (g : M → M') (k : Disk π F M) : Disk π F' M' where
  names := k.names
  inodes := Option.map (fun i => ⟨i.data, g i.mode⟩) ∘ k.inodes
  files := Option.map (fun x => ⟨x.inode, x.offset, f x.flags⟩) ∘ k.files
  descs := k.descs

end Disk

def Found.map {F F' M M' : Type} (f : F → F') (g : M → M') (x : Found F M) : Found F' M' where
  file := x.file
  open_ := ⟨x.open_.inode, x.open_.offset, f x.open_.flags⟩
  inode := ⟨x.inode.data, g x.inode.mode⟩

namespace Disk

variable {π F F' M M' : Type} [DecidableEq π] (f : F → F') (g : M → M') (k : Disk π F M)

omit [DecidableEq π] in
theorem map_setData (i : Nat) (data : List UInt8) :
    (k.setData i data).map f g = (k.map f g).setData i data := by
  simp only [setData, map, Function.comp_update, Function.comp_apply, Option.map_map]
  rfl

omit [DecidableEq π] in
theorem map_seek (t offset : Nat) : (k.seek t offset).map f g = (k.map f g).seek t offset := by
  simp only [seek, map, Function.comp_update, Function.comp_apply, Option.map_map]
  rfl

omit [DecidableEq π] in
theorem map_create (path : String) (i : Nat) (mode : M) :
    (k.create path i mode).map f g = (k.map f g).create path i (g mode) := by
  simp only [create, map, Function.comp_update]
  rfl

theorem map_attach (who : π) (fd : Int) (t i : Nat) (flags : F) :
    (k.attach who fd t i flags).map f g = (k.map f g).attach who fd t i (f flags) := by
  simp only [attach, refer, map, Function.comp_update]
  rfl

omit [DecidableEq π] in
theorem map_writeAt (x : Found F M) (pos : Nat) (bytes : List UInt8) :
    (k.writeAt x pos bytes).map f g = (k.map f g).writeAt (x.map f g) pos bytes := by
  unfold writeAt
  split
  · rfl
  · rw [map_seek, map_setData]
    rfl

omit [DecidableEq π] in
theorem find_map (who : π) (fd : Int) :
    (k.map f g).find who fd = (k.find who fd).map (Found.map f g) := by
  simp only [find, map, Function.comp_apply]
  cases k.descs who fd with
  | none => rfl
  | some t =>
    cases ht : k.files t with
    | none => simp [ht]
    | some x => cases hi : k.inodes x.inode <;> simp [ht, hi, Found.map]

end Disk

/-- What the words of the kernel's disk stand for. -/
def RawDisk.abs {π : Type} (k : RawDisk π) : Store π := k.map Flags.access Permission.layout.denote

/-! ## Decoding the flags of an opening -/

namespace Opening

variable (o : Opening)

/-- The flags that the kernel tests: each has a bit that no other flag and no mode has. -/
def tested : List OpenFlag := [.creat, .excl, .truncate, .directory, .append]

/-- A flag that is tested is found exactly when it was joined. -/
theorem has_word_iff {flag : OpenFlag} (h : flag ∈ tested) :
    (EnumFlag.mk o.word).has flag.underlying = true ↔ flag ∈ o.flags := by
  simp only [tested, List.mem_cons, List.not_mem_nil, or_false] at h
  have hmode : (EnumFlag.mk o.access.underlying).has flag.underlying = false := by
    rcases h with rfl | rfl | rfl | rfl | rfl <;> cases o.access <;> rfl
  have hflag : EnumFlag.SeesExactly OpenFlag.underlying flag := by
    apply (EnumFlag.seesExactly_iff _ _).mpr
    intro c
    rcases h with rfl | rfl | rfl | rfl | rfl <;> cases c <;> decide
  have hor := EnumFlag.has_or (F := ⟨o.access.underlying⟩) (G := o.joined)
    (C := flag.underlying)
  rw [hmode, Bool.false_or] at hor
  exact (iff_of_eq (congrArg (· = true) hor)).trans (hflag o.flags)

theorem pathOnly_word : Flags.pathOnly o.word = true ↔ o.access = .exec := by
  have hnone : o.joined.has AccessMode.exec.underlying = false := by
    apply EnumFlag.join_has_eq_false
    intro c
    cases c <;> rfl
  have hor := EnumFlag.has_or (F := ⟨o.access.underlying⟩) (G := o.joined)
    (C := AccessMode.exec.underlying)
  rw [hnone, Bool.or_false] at hor
  unfold Flags.pathOnly
  apply (iff_of_eq (congrArg (· = true) hor)).trans
  cases o.access <;> decide

theorem not_pathOnly_word : (!Flags.pathOnly o.word) = true ↔ o.access ≠ .exec := by
  rw [Bool.not_eq_true', ← Bool.not_eq_true, pathOnly_word]

theorem creates_word : Flags.creates o.word = true ↔ o.Creates := by
  rw [Flags.creates, Bool.and_eq_true, not_pathOnly_word, has_word_iff o (by simp [tested])]
  exact Iff.rfl

theorem excludes_word : Flags.excludes o.word = true ↔ o.Excludes := by
  rw [Flags.excludes, Bool.and_eq_true, creates_word, has_word_iff o (by simp [tested])]
  exact Iff.rfl

theorem truncates_word : Flags.truncates o.word = true ↔ o.Truncates := by
  rw [Flags.truncates, Bool.and_eq_true, not_pathOnly_word, has_word_iff o (by simp [tested])]
  exact Iff.rfl

theorem directory_word : Flags.directory o.word = true ↔ .directory ∈ o.flags :=
  has_word_iff o (by simp [tested])

theorem appends_word : (Flags.access o.word).appends = o.stream.appends := by
  rw [Bool.eq_iff_iff, stream, decide_eq_true_iff]
  exact has_word_iff o (by simp [tested])

/-- The two bits of the access mode reach the kernel as they are. -/
theorem accmode_word :
    o.word &&& AccessMode.accmode.underlying =
      o.access.underlying &&& AccessMode.accmode.underlying := by
  apply EnumFlag.or_and_of_has_eq_false
  apply EnumFlag.join_has_eq_false
  intro c
  cases c <;> rfl

/-- The kernel's description allows what the opener asked for. -/
theorem access_word : Flags.access o.word = o.stream := by
  have hpath : Flags.pathOnly o.word = decide (o.access = .exec) := by
    rw [Bool.eq_iff_iff, pathOnly_word, decide_eq_true_iff]
  have hreads : (Flags.access o.word).reads = o.access.reads := by
    rw [Flags.access, hpath, accmode_word]
    cases o.access <;> rfl
  have hwrites : (Flags.access o.word).writes = o.access.writes := by
    rw [Flags.access, hpath, accmode_word]
    cases o.access <;> rfl
  ext
  · rw [hreads, stream]
  · rw [hwrites, stream]
  · rw [o.appends_word]

end Opening

end Files
