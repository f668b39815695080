-- SUMMARY: Files, open file descriptions and descriptors, and a kernel that answers the calls of `file` on them.
import Pposix.Base.Cells
import Pposix.Base.Tape
import Pposix.Core.EnumFlag
import Pposix.Files.File
import Mathlib.Logic.Function.Basic

/-!
# A kernel with files

A descriptor refers to an open file description, and the description to an inode. The
offset belongs to the description, so descriptors that refer to the same one share it.
What a description stores of the flags, and an inode of its mode, is a parameter.
-/

namespace Files

structure Inode (M : Type) where
  data : List UInt8
  mode : M

/-- An open file description. -/
structure OpenFile (F : Type) where
  inode : Nat
  offset : Nat
  flags : F

/-- The descriptors are those of each process. -/
structure Disk (π F M : Type) where
  names : String → Option Nat
  inodes : Nat → Option (Inode M)
  files : Nat → Option (OpenFile F)
  descs : π → Int → Option Nat

/-- What a descriptor refers to, with the number of the description. -/
structure Found (F M : Type) where
  file : Nat
  open_ : OpenFile F
  inode : Inode M

/-- Where a call finds the data: a description, an inode, and a position in it. -/
structure Place where
  file : Nat := 0
  inode : Nat := 0
  pos : Nat := 0
  deriving DecidableEq

namespace Found

variable {F M : Type} (f : Found F M) (pos : Nat)

def place : Place := ⟨f.file, f.open_.inode, pos⟩

@[simp] theorem place_file : (f.place pos).file = f.file := rfl

@[simp] theorem place_inode : (f.place pos).inode = f.open_.inode := rfl

@[simp] theorem place_pos : (f.place pos).pos = pos := rfl

end Found

namespace Disk

variable {π F M : Type} [DecidableEq π]

omit [DecidableEq π] in
def find (k : Disk π F M) (who : π) (fd : Int) : Option (Found F M) := do
  let t ← k.descs who fd
  let f ← k.files t
  let i ← k.inodes f.inode
  return ⟨t, f, i⟩

/-! ## Changes -/

omit [DecidableEq π] in
def setData (k : Disk π F M) (i : Nat) (data : List UInt8) : Disk π F M :=
  { k with inodes := Function.update k.inodes i ((k.inodes i).map fun x => ⟨data, x.mode⟩) }

omit [DecidableEq π] in
def seek (k : Disk π F M) (t offset : Nat) : Disk π F M :=
  { k with files := Function.update k.files t ((k.files t).map fun f => ⟨f.inode, offset, f.flags⟩) }

omit [DecidableEq π] in
/-- A new inode under a name. -/
def create (k : Disk π F M) (path : String) (i : Nat) (mode : M) : Disk π F M :=
  { k with
    names := Function.update k.names path (some i)
    inodes := Function.update k.inodes i (some ⟨[], mode⟩) }

def refer (k : Disk π F M) (who : π) (fd : Int) (t : Option Nat) : Disk π F M :=
  { k with descs := Function.update k.descs who (Function.update (k.descs who) fd t) }

/-- To release a descriptor that is free changes nothing. -/
theorem refer_none {k : Disk π F M} {who : π} {fd : Int} (h : k.descs who fd = none) :
    k.refer who fd none = k := by
  rw [refer, ← h, Function.update_eq_self, Function.update_eq_self]

/-- A new description of an inode, and a descriptor that refers to it. -/
def attach (k : Disk π F M) (who : π) (fd : Int) (t i : Nat) (flags : F) : Disk π F M :=
  { k with files := Function.update k.files t (some ⟨i, 0, flags⟩) }.refer who fd (some t)

omit [DecidableEq π] in
def unlink (k : Disk π F M) (path : String) : Disk π F M :=
  { k with names := Function.update k.names path none }

omit [DecidableEq π] in
/-- Write at a position. A write of no bytes does nothing. -/
def writeAt (k : Disk π F M) (f : Found F M) (pos : Nat) (bytes : List UInt8) : Disk π F M :=
  if bytes = [] then k
  else (k.setData f.open_.inode (Tape.splice 0 f.inode.data pos bytes)).seek f.file
    (pos + bytes.length)

end Disk

/-! ## Flags -/

/-- What a description allows. -/
@[ext] structure Access where
  reads : Bool
  writes : Bool
  appends : Bool
  deriving DecidableEq

namespace Flags

/-- `O_PATH`: the other flags are ignored, but for `O_DIRECTORY`. -/
def pathOnly (flags : Word) : Bool := (EnumFlag.mk flags).has AccessMode.exec.underlying

def creates (flags : Word) : Bool :=
  (EnumFlag.mk flags).has OpenFlag.creat.underlying && !pathOnly flags

def excludes (flags : Word) : Bool :=
  creates flags && (EnumFlag.mk flags).has OpenFlag.excl.underlying

/-- As on Linux, also when the file is opened for reading. -/
def truncates (flags : Word) : Bool :=
  (EnumFlag.mk flags).has OpenFlag.truncate.underlying && !pathOnly flags

def directory (flags : Word) : Bool := (EnumFlag.mk flags).has OpenFlag.directory.underlying

/-- The two bits of `O_ACCMODE`, unless there is `O_PATH`. -/
def access (flags : Word) : Access where
  reads := !pathOnly flags &&
    (flags &&& AccessMode.accmode.underlying == AccessMode.read.underlying ||
      flags &&& AccessMode.accmode.underlying == AccessMode.readWrite.underlying)
  writes := !pathOnly flags &&
    (flags &&& AccessMode.accmode.underlying == AccessMode.write.underlying ||
      flags &&& AccessMode.accmode.underlying == AccessMode.readWrite.underlying)
  appends := (EnumFlag.mk flags).has OpenFlag.append.underlying

end Flags

/-! ## Answers -/

/-- What the kernel does with a call: it fails, it opens with new numbers, or it carries the
call out for `count` bytes. A close that fails may still release its descriptor. A call that
succeeds leaves `noise` in `errno`. -/
inductive Choice where
  | fail (err : Errno) (released : Bool)
  | opened (noise : Errno) (fd file inode : Nat)
  | done (noise : Errno) (count : Nat)
  deriving DecidableEq

/-- `EBADF`. -/
def ebadf : Errno := 9

/-- Where a write starts. -/
def Found.start {F M : Type} (f : Found F M) (appends : Bool) : Nat :=
  if appends then f.inode.data.length else f.open_.offset

/-- Where `lseek` counts from; `none` for a `whence` that is not one. -/
def Found.origin {F M : Type} (f : Found F M) (whence : Int) : Option Nat :=
  if whence = FileSeek.set.underlying then some 0
  else if whence = FileSeek.current.underlying then some f.open_.offset
  else if whence = FileSeek.end_.underlying then some f.inode.data.length
  else none

/-- The bytes that a read could give. -/
def Found.ahead {F M : Type} (f : Found F M) (count : Nat) : List UInt8 :=
  (f.inode.data.drop f.open_.offset).take count

/-- The calls that the kernel answers. -/
def served : Syscall → Bool
  | .open_ .. | .close _ | .lseek .. | .read .. | .write .. => true
  | _ => false

section Kernel

variable {π : Type} [DecidableEq π]

/-- The kernel's own disk stores flags and modes as they were given. -/
abbrev RawDisk (π : Type) := Disk π Word Word

namespace RawDisk

/-- The inode that is opened, and the disk with it. A call with `O_CREAT` that lacks the
mode has no answer. -/
def resolve (k : RawDisk π) (umask : Word) (path : String) (flags : Word) (mode : Option Word)
    (new : Nat) : Option (Nat × RawDisk π) :=
  match k.names path with
  | some i =>
    if Flags.excludes flags then none
    else some (i, if Flags.truncates flags then k.setData i [] else k)
  | none =>
    match mode with
    | some mode =>
      if Flags.creates flags ∧ k.inodes new = none then
        some (new, k.create path new (mode &&& ~~~umask))
      else none
    | none => none

/-- A regular file is not a directory. -/
def open_ (k : RawDisk π) (umask : Word) (who : π) (path : String) (flags : Word)
    (mode : Option Word) (fd file new : Nat) : Option (RawDisk π) :=
  if (Flags.creates flags → mode.isSome) ∧ ¬ Flags.directory flags ∧ k.descs who fd = none ∧
      k.files file = none then
    (k.resolve umask path flags mode new).map fun x => x.2.attach who fd file x.1 flags
  else none

def lseek (k : RawDisk π) (who : π) (fd offset whence : Int) : Option (Int × RawDisk π) := do
  let f ← k.find who fd
  let base ← f.origin whence
  if 0 ≤ base + offset then some (base + offset, k.seek f.file (base + offset).toNat) else none

/-- A read gives at least one byte, unless there is none to give. -/
def read (k : RawDisk π) (who : π) (fd : Int) (count n : Nat) :
    Option (List UInt8 × RawDisk π) := do
  let f ← k.find who fd
  if (Flags.access f.open_.flags).reads ∧ n ≤ (f.ahead count).length ∧
      (n = 0 → f.ahead count = []) then
    some ((f.ahead count).take n, k.seek f.file (f.open_.offset + n))
  else none

/-- A write takes at least one byte, unless there is none. -/
def write (k : RawDisk π) (who : π) (fd : Int) (bytes : List UInt8) (n : Nat) :
    Option (RawDisk π) := do
  let f ← k.find who fd
  let access := Flags.access f.open_.flags
  if access.writes ∧ n ≤ bytes.length ∧ (n = 0 → bytes = []) then
    some (k.writeAt f (f.start access.appends) (bytes.take n))
  else none

/-- The disk after a call that failed. -/
def failed (k : RawDisk π) (who : π) (released : Bool) : Syscall → RawDisk π
  | .close fd => if released then k.refer who fd none else k
  | _ => k

end RawDisk

/-- The answer to a call of the process `who`, whose memory is `mem`. A negative number is
no descriptor. -/
def answer (umask : Word) (who : π) (choice : Choice) :
    Prog.Env (RawDisk π × (Ptr → UInt8)) Syscall Response := fun (k, mem) c =>
  match choice, c with
  | _, .close (.negSucc _) => some (⟨-1, ebadf, .nothing⟩, k, mem)
  | .fail err released, c =>
    if served c ∧ err ≠ 0 then some (⟨-1, err, .nothing⟩, k.failed who released c, mem) else none
  | .opened noise fd file new, .open_ path flags mode =>
    (k.open_ umask who path flags mode fd file new).map fun k' => (⟨fd, noise, .nothing⟩, k', mem)
  | .done noise _, .close fd =>
    if (k.descs who fd).isSome then some (⟨0, noise, .nothing⟩, k.refer who fd none, mem) else none
  | .done noise _, .lseek fd offset whence =>
    (k.lseek who fd offset whence).map fun x => (⟨x.1, noise, .nothing⟩, x.2, mem)
  | .done noise n, .read fd buf count =>
    (k.read who fd count.toNat n).map fun x =>
      (⟨x.1.length, noise, .nothing⟩, x.2, Cells.write mem buf x.1)
  | .done noise n, .write fd buf count =>
    (k.write who fd (Cells.read mem 1 buf count.toNat) n).map fun k' => (⟨n, noise, .nothing⟩, k', mem)
  | _, _ => none

end Kernel

end Files
