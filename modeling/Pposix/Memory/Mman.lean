-- SUMMARY: `mman.cpp` and `mman.hpp`: memory mappings and shared memory objects.
import Pposix.Files.FileDescriptor

/-!
# Memory mappings

`mmap::unmap` calls `::munmap` on the range that its member stores. It does not go
through `descriptor::close`, so the range stays in the member.
-/

/-- `mmap_d`: a mapped range. -/
structure MmapD where
  address : Ptr
  length : SizeT
  deriving DecidableEq, Repr

/-- `capi::mmap_protection`. -/
inductive MmapProtection where
  | read | write | exec | none
  deriving DecidableEq, Repr

def MmapProtection.underlying : MmapProtection → Word
  | .read => 1
  | .write => 2
  | .exec => 4
  | .none => 0

/-- `capi::mmap_flag`. -/
inductive MmapFlag where
  | fixed | private_ | shared
  deriving DecidableEq, Repr

def MmapFlag.underlying : MmapFlag → Word
  | .fixed => 16
  | .private_ => 2
  | .shared => 1

/-- `MAP_FAILED`. -/
def mapFailed : Ptr := -1

/-- `mmap_d()`. -/
def MmapD.default : MmapD := ⟨mapFailed, 0⟩

def closeMmap (m : MmapD) : Sys ErrorCode := commonCall (.munmap m.address m.length)

/-- The range that a call unmaps. -/
def Syscall.unmapped : Syscall → Option MmapD
  | .munmap addr len => some ⟨addr, len⟩
  | _ => none

/-- `detail::get_mmap_null_d` and `close_mmap`. -/
def mmapPolicy : Policy MmapD where
  null := .default
  close := closeMmap
  call m := .munmap m.address m.length
  handle := Syscall.unmapped
  close_eq _ := rfl
  handle_call _ := rfl

abbrev UniqueMmapD := Descriptor mmapPolicy

def Capi.mmapMap (addr : Ptr) (len : SizeT) (prot flags : Word) (fildes off : Int) :
    Sys (Result MmapD) := do
  let ptr ← syscall (.mmap addr len prot flags fildes off)
  if ptr.ret = mapFailed then return .ofErrorCode (← currentErrnoCode)
  else return .ofValue ⟨ptr.ret, len⟩

/-- `MAP_FAILED` is `-1`, so this is the translation that the macros make. -/
theorem Capi.mmapMap_eq (addr : Ptr) (len : SizeT) (prot flags : Word) (fildes off : Int) :
    mmapMap addr len prot flags fildes off =
      commonResultMap (fun p => ⟨p, len⟩) (.mmap addr len prot flags fildes off) := rfl

structure Mmap where
  mmapD : UniqueMmapD

instance : Wrapper Mmap mmapPolicy where
  member := Mmap.mmapD
  ofMember := Mmap.mk
  member_ofMember _ := rfl

namespace Mmap

def map (addr : Ptr) (len : SizeT) (prot flags : Word) (fildes off : Int) :
    Sys (Result Mmap) := do
  resultMap (← Capi.mmapMap addr len prot flags fildes off) fun d => Result.ofTemporary (Wrapper.ofRaw d)

def unmap (this : Mmap) : Sys ErrorCode :=
  commonCall (.munmap this.mmapD.raw.address this.mmapD.raw.length)

end Mmap

/-! ## Shared memory -/

structure Shm where
  shmFd : FileDescriptor

instance : Wrapper Shm fdPolicy where
  member := Shm.shmFd
  ofMember := Shm.mk
  member_ofMember _ := rfl
