-- SUMMARY: Pools of mappings: when every range is unmapped at most once and only by the object that owns it.
import Pposix.Os.Space
import Pposix.Owners.Exact

/-!
# Pools of mappings

`mmap` as an owner class over the pages of the address space. Its `unmap` leaves the
range in the member, so the destructor unmaps the range once more, whatever is there
by then.
-/

open Owners Os

inductive MmapMethod where
  | unmap

namespace Mmap

/-- `unmap`, with its error dropped. It does not change the member. -/
def unmapMethod (w : Mmap) : Sys Mmap := do
  let _ ← w.unmap
  return w

theorem unmapMethod_apply (w : Mmap) (e : Errno) :
    w.unmapMethod e = .call (mmapPolicy.call (Wrapper.raw w)) fun r => .done (w, r.errno) := by
  have hunmap : w.unmapMethod e = (w.unmap e).bind fun x => .done (w, x.2) := rfl
  rw [hunmap]
  unfold unmap
  rw [commonCall_apply]
  rfl

end Mmap

def mmapClass : Class Syscall Response Errno Mmap MmapD MmapMethod where
  null := mmapPolicy.null
  raw := Wrapper.raw
  touches := mmapPolicy.handle
  empty := Wrapper.default
  adopt := Wrapper.ofRaw
  moveConstruct := Wrapper.moveConstruct
  assign v w := (Wrapper.moveAssign v w).1
  release := none
  method | .unmap => Mmap.unmapMethod
  destroy := Wrapper.destroy
  raw_empty := rfl
  raw_adopt _ := rfl
  raw_moveConstruct := Wrapper.raw_moveConstruct
  raw_assign := Wrapper.raw_moveAssign
  raw_release := by simp
  method_paths := by
    intro m w e
    cases m
    change (w.unmapMethod e).Paths _
    rw [Mmap.unmapMethod_apply]
    exact fun r => ⟨⟨by simp, by simp [mmapPolicy.handle_call]⟩, .inl rfl⟩
  destroy_paths := by
    intro w e
    rw [Wrapper.destroy_apply]
    exact fun r => ⟨by simp, by simp [mmapPolicy.handle_call]⟩

theorem mmapClass_singleCall : mmapClass.SingleCall fun _ d => mmapPolicy.call d where
  method
    | .unmap, w, e => ⟨_, Mmap.unmapMethod_apply w e⟩
  destroy w e := ⟨_, Wrapper.destroy_apply w e⟩

section Mappings

variable {ι : Type} [DecidableEq ι] {size : Nat}

/-- A range is unmapped at most once, it is not handed to `munmap` again, and every call
is on a range whose pages all belong to the object, or on the null range. -/
def MappingsRespectful (size : Nat) (log : List (Entry Space Syscall Response MmapD)) : Prop :=
  (∀ t, ((calls log).filter fun c => (Space.kernel size).Ends c ∧ c.token = some t).length ≤ 1) ∧
  ((calls log).Pairwise fun c c' =>
    (Space.kernel size).Ends c → ∀ t, c.token = some t → c'.token ≠ some t) ∧
  ∀ c ∈ calls log, c.call.unmapped = some c.raw ∧
    match c.token with
    | none => c.raw = .default
    | some t => ∀ q ∈ Space.pages size c.raw, c.before.page q = some (some t)

/-- Neither `unmap` nor the destructor runs on an object after an unmapping of its range
succeeded. -/
def NotAfterUnmap (size : Nat) (s : Owners.State ι Space Syscall Response Errno Mmap MmapD)
    (a : Action ι Response MmapD MmapMethod Mapper) : Prop :=
  Careful (Space.kernel size) (fun _ _ => False) s a

instance (s : Owners.State ι Space Syscall Response Errno Mmap MmapD)
    (a : Action ι Response MmapD MmapMethod Mapper) : Decidable (NotAfterUnmap size s a) :=
  inferInstanceAs (Decidable (Careful ..))

/-- A run respects the mappings of all owners exactly when no object is unmapped or
destroyed after its `unmap` succeeded. -/
theorem Mmap.respectful_iff_not_after_unmap (size : Nat) (k : Space) (e : Errno)
    (as : List (Action ι Response MmapD MmapMethod Mapper)) :
    Machine.Always (step mmapClass (Space.kernel size)) (fun s => MappingsRespectful size s.log)
        (State.init k e) as ↔
      Machine.Guarded (step mmapClass (Space.kernel size)) (NotAfterUnmap size)
        (State.init k e) as :=
  respectful_iff_careful (Space.lawful size mmapClass rfl id) mmapClass_singleCall
    (fun _ _ => id) k e as

/-- An explicit unmap, a mapping of other code on the same pages, and the destructor. -/
def doubleUnmapRun : List (Action Unit Response MmapD MmapMethod Mapper) :=
  [.adopt () ⟨8192, 4096⟩, .method () .unmap ⟨0, 0, .nothing⟩, .other (.map ⟨8192, 4096⟩),
    .destroy () ⟨0, 0, .nothing⟩]

theorem Mmap.double_unmap :
    ∃ s, Machine.run (step mmapClass (Space.kernel 4096)) (State.init Space.empty 0)
        doubleUnmapRun = some s ∧
      ((calls s.log).filter fun c =>
        (Space.kernel 4096).Ends c ∧ c.token = some 0).length = 2 ∧
      s.kernel.page 2 = none ∧
      ∃ c ∈ calls s.log, c.call = .munmap 8192 4096 ∧ c.answer.ret = 0 ∧
        c.before.page 2 = some none :=
  ⟨_, rfl, rfl, rfl, _, .tail _ (.head _), rfl, rfl, rfl⟩

end Mappings
