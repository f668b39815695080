-- SUMMARY: The static assertions that test flag sets: which flags they see, and which sets they let through.
import Pposix.Core.EnumFlag
import Pposix.Files.Fcntl
import Pposix.Lnx.Epoll
import Pposix.Memory.Mman
import Pposix.Rt.Mqueue

/-!
# Guards on flags

Some functions take their flags as a type and refuse sets at compile time. Each guard
is built from tests for single constants. The test for `mmap_no_access` never succeeds,
because the constant has no bits.
-/

namespace Guards

open EnumFlag

/-! ## The assertions -/

/-- Both overloads of `file::open`: `excl` needs `creat`. -/
def openExcl (OpenFlags : EnumFlag 32) : Bool :=
  if OpenFlags.hasFlag ⟨OpenFlag.excl.underlying⟩ then
    OpenFlags.hasFlag ⟨OpenFlag.creat.underlying⟩
  else true

/-- `file::open` without a permission: no `creat`. -/
def openCreat (OpenFlags : EnumFlag 32) : Bool :=
  !OpenFlags.hasFlag ⟨OpenFlag.creat.underlying⟩

/-- `mmap::map` and `mmap::protect`: `mmap_no_access` excludes the other protections. -/
def protection (ProtectionFlags : EnumFlag 32) : Bool :=
  !(ProtectionFlags.hasFlag ⟨MmapProtection.none.underlying⟩ &&
    (ProtectionFlags.hasFlag ⟨MmapProtection.read.underlying⟩ ||
      ProtectionFlags.hasFlag ⟨MmapProtection.write.underlying⟩ ||
      ProtectionFlags.hasFlag ⟨MmapProtection.exec.underlying⟩))

/-- `mmap::map`: not both of `mmap_private` and `mmap_shared`. -/
def visibility (Flags : EnumFlag 32) : Bool :=
  !(Flags.hasFlag ⟨MmapFlag.private_.underlying⟩ && Flags.hasFlag ⟨MmapFlag.shared.underlying⟩)

/-- `mq::setattr`: no `mq_excl`. -/
def setattr (Option : EnumFlag 32) : Bool := !Option.hasFlag ⟨MqOption.excl.underlying⟩

/-- `epoll_modify`: no `epoll_exclusive`. -/
def epollModify (Flags : EnumFlag 32) : Bool :=
  !Flags.hasFlag ⟨EpollEventFlag.exclusive.underlying⟩

/-! ## The flags that they test -/

/-- A test for a constant in one of the assertions. -/
inductive Test where
  | excl | creat
  | mmapNoAccess | mmapRead | mmapWrite | mmapExecute
  | mmapPrivate | mmapShared
  | mqExcl
  | epollExclusive
  deriving DecidableEq

namespace Test

/-- The test finds its constant in a join of constants of the enumeration exactly when it
was put in. -/
def Exact : Test → Prop
  | .excl => SeesExactly OpenFlag.underlying .excl
  | .creat => SeesExactly OpenFlag.underlying .creat
  | .mmapNoAccess => SeesExactly MmapProtection.underlying .none
  | .mmapRead => SeesExactly MmapProtection.underlying .read
  | .mmapWrite => SeesExactly MmapProtection.underlying .write
  | .mmapExecute => SeesExactly MmapProtection.underlying .exec
  | .mmapPrivate => SeesExactly MmapFlag.underlying .private_
  | .mmapShared => SeesExactly MmapFlag.underlying .shared
  | .mqExcl => SeesExactly MqOption.underlying .excl
  | .epollExclusive => SeesExactly EpollEventFlag.underlying .exclusive

theorem not_exact_mmapNoAccess : ¬ Exact .mmapNoAccess := by
  intro h
  exact absurd ((h [.none]).mpr (List.mem_singleton_self _)) (by decide)

/-- Every test but one is exact: its constant has a bit that no other constant has. -/
theorem exact_iff (t : Test) : t.Exact ↔ t ≠ .mmapNoAccess := by
  by_cases ht : t = .mmapNoAccess
  · subst ht
    exact iff_of_false not_exact_mmapNoAccess (fun h => h rfl)
  · refine iff_of_true ?_ ht
    cases t <;> first | exact absurd rfl ht | skip
    all_goals
      apply (seesExactly_iff _ _).mpr
      intro c
      cases c <;> decide

end Test

/-! ## The sets that they let through -/

theorem openExcl_join (cs : List OpenFlag) :
    openExcl (join OpenFlag.underlying cs) = true ↔ (.excl ∈ cs → .creat ∈ cs) := by
  have hexcl : SeesExactly OpenFlag.underlying .excl := (Test.exact_iff .excl).mpr (by decide)
  have hcreat : SeesExactly OpenFlag.underlying .creat := (Test.exact_iff .creat).mpr (by decide)
  unfold openExcl
  split <;> rename_i h
  · exact (hcreat cs).trans ⟨fun hc _ => hc, fun himp => himp ((hexcl cs).mp h)⟩
  · exact iff_of_true rfl fun hc => absurd ((hexcl cs).mpr hc) h

theorem openCreat_join (cs : List OpenFlag) :
    openCreat (join OpenFlag.underlying cs) = true ↔ .creat ∉ cs := by
  have hcreat : SeesExactly OpenFlag.underlying .creat := (Test.exact_iff .creat).mpr (by decide)
  exact hcreat.refused_iff cs

theorem visibility_join (cs : List MmapFlag) :
    visibility (join MmapFlag.underlying cs) = true ↔ ¬ (.private_ ∈ cs ∧ .shared ∈ cs) := by
  have hprivate : SeesExactly MmapFlag.underlying .private_ :=
    (Test.exact_iff .mmapPrivate).mpr (by decide)
  have hshared : SeesExactly MmapFlag.underlying .shared :=
    (Test.exact_iff .mmapShared).mpr (by decide)
  rw [visibility, Bool.not_eq_true', ← Bool.not_eq_true, Bool.and_eq_true, hasFlag_mk,
    hasFlag_mk, hprivate cs, hshared cs]

theorem setattr_join (cs : List MqOption) :
    setattr (join MqOption.underlying cs) = true ↔ .excl ∉ cs := by
  have hexcl : SeesExactly MqOption.underlying .excl := (Test.exact_iff .mqExcl).mpr (by decide)
  exact hexcl.refused_iff cs

theorem epollModify_join (cs : List EpollEventFlag) :
    epollModify (join EpollEventFlag.underlying cs) = true ↔ .exclusive ∉ cs := by
  have hexclusive : SeesExactly EpollEventFlag.underlying .exclusive :=
    (Test.exact_iff .epollExclusive).mpr (by decide)
  exact hexclusive.refused_iff cs

/-- The guard of the protections refuses nothing. -/
theorem protection_all (F : EnumFlag 32) : protection F = true := by
  have hnone : F.has MmapProtection.none.underlying = false := by
    simp [has, MmapProtection.underlying]
  rw [protection, hasFlag_mk, hnone, Bool.false_and, Bool.not_false]

end Guards

/-! ## Membership -/

/-- Membership is what it should be for the constants with one bit: the laws hold of `F`,
`G` and `C` when `C` has a bit and `F` has all of its bits or none, they hold of every `F`
and `G` when `C` has one bit, and the guards find every constant but `mmap_no_access`. -/
theorem EnumFlag.membership_iff {w : Nat} (F G : EnumFlag w) (C : BitVec w) :
    (Laws F G C ↔ C ≠ 0 ∧ (F.flags &&& C = 0 ∨ F.flags &&& C = C)) ∧
    ((∀ F G, Laws F G C) ↔ ∃ i < w, C = BitVec.twoPow w i) ∧
    ∀ t : Guards.Test, t.Exact ↔ t ≠ .mmapNoAccess :=
  ⟨laws_iff F G C, forall_laws_iff C, Guards.Test.exact_iff⟩

/-- `dsync` has `sync`, which has one bit more, and `mmap_no_access` has not itself. -/
theorem EnumFlag.dsync_has_sync :
    ¬ Laws ⟨OpenFlag.dsync.underlying⟩ ⟨0⟩ OpenFlag.sync.underlying ∧
      ¬ Laws ⟨MmapProtection.read.underlying⟩ ⟨0⟩ MmapProtection.none.underlying := by
  constructor
  · intro h
    exact absurd (h.sound (by decide) 20 (by decide)) (by decide)
  · intro h
    exact absurd h.put (by decide)
