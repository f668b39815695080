-- SUMMARY: Empty descriptors are not inert: which runs, objects and factories close no null handle.
import Pposix.Ownership.Descriptor
import Pposix.Ownership.Factories

/-!
# Empty descriptors

`close` and the destructor do not ask whether the object is empty. So every close or
destruction of an empty object is a call on the null handle, and every factory that
succeeds makes such calls for its temporaries.
-/

open Owners

section Objects

variable {D : Type} {P : Policy D}

/-- If the object is empty, `close` and the destructor make no call, `close` reports no
error, and `errno` stays as it is. -/
def InertWhenEmpty (w : Descriptor P) : Prop :=
  w.raw = P.null → ∀ e,
    (w.close e).Paths (fun h x => h = [] ∧ x.1.1.isError = false ∧ x.2 = e) ∧
      (w.destroy e).Paths fun h x => h = [] ∧ x.2 = e

theorem inertWhenEmpty_iff (w : Descriptor P) : InertWhenEmpty w ↔ w.raw ≠ P.null := by
  constructor
  · intro h hnull
    -- The destructor of an empty object makes a call, whatever comes back.
    have hpath := (h hnull 0).2
    rw [Descriptor.destroy_apply] at hpath
    have habsurd := (hpath ⟨0, 0, .nothing⟩).1
    cases habsurd
  · exact fun h hnull => absurd hnull h

end Objects

section Factories

variable {W D : Type} {P : Policy D}

/-- The program closes no null handle, on the paths where its first call returned
`failed` and on no others. -/
def ClosesNullUnless (P : Policy D) (failed : Int)
    (p : Prog Syscall Response (Result W × Errno)) : Prop :=
  p.Paths fun h _ => (∀ q ∈ h, q.1 ≠ P.call P.null) ↔ ∃ q ∈ h.head?, q.2.ret = failed

theorem closesNullUnless_handOver [Wrapper W P] {c : Syscall} {failed : Int} {mk : Int → D}
    {n : Nat} (hn : n ≠ 0) (hc : P.handle c = none) :
    ClosesNullUnless P failed (handOver W c failed mk n) := by
  have hopen : c ≠ P.call P.null := by
    rintro rfl
    rw [P.handle_call] at hc
    cases hc
  intro r
  dsimp only
  split <;> rename_i hr
  · simp [hopen, hr]
  · refine (destroyEmpties_paths P _ n r.errno).mono fun h x hx => ?_
    obtain ⟨-, hlen, hnull⟩ := hx
    refine ⟨fun hno => ?_, fun ⟨q, hq, hfail⟩ => ?_⟩
    · cases h with
      | nil => exact absurd hlen.symm hn
      | cons q h => exact absurd (hnull q (by simp)) (hno q (by simp))
    · cases hq
      exact absurd hfail hr

end Factories

/-- Closes are on handles exactly where the objects are not empty: along the runs that
close and destroy objects with a handle only, for the objects that store one, and in the
factories whose call for a handle failed. -/
theorem closes_on_handle_iff_not_empty {ι D κ E : Type} [DecidableEq ι] [DecidableEq D]
    (P : Policy D) (K : Kernel κ Syscall Response D E) (k : κ) (e : Errno)
    (as : List (Action ι Response D DescriptorMethod E)) (w : Descriptor P) :
    (Machine.Always (step (descriptorClass P) K) (fun s => ∀ c ∈ calls s.log, OnHandle P c)
        (State.init k e) as ↔
      Machine.Guarded (step (descriptorClass P) K) ActsOnHandle (State.init k e) as) ∧
    (InertWhenEmpty w ↔ w.raw ≠ P.null) ∧
    (∀ dom typ flags prot,
      ClosesNullUnless socketPolicy (-1) (Socket.unsafeMake dom typ flags prot e)) ∧
    (∀ size, ClosesNullUnless fdPolicy (-1) (Epoll.unsafeCreate size e)) ∧
    (∀ flags, ClosesNullUnless fdPolicy (-1) (Epoll.unsafeCreate1 flags e)) ∧
    (∀ name mode option,
      ClosesNullUnless mqPolicy nullMqdT (Mq.unsafeOpen name mode option e)) ∧
    (∀ fd, ClosesNullUnless dirPolicy 0 (opendirFd fd e)) ∧
    (∀ path, ClosesNullUnless dirPolicy 0 (opendir path e)) ∧
    (∀ path access flags, ClosesNullUnless fdPolicy (-1) (File.open_ path access flags e)) ∧
    (∀ path access flags perm,
      ClosesNullUnless fdPolicy (-1) (File.openPermission path access flags perm e)) ∧
    ∀ addr len prot flags fildes off,
      ClosesNullUnless mmapPolicy mapFailed (Mmap.map addr len prot flags fildes off e) := by
  refine ⟨onHandle_iff_guarded k e as, inertWhenEmpty_iff w, ?_, ?_, ?_, ?_, ?_, ?_, ?_, ?_, ?_⟩
  · intro dom typ flags prot
    rw [Socket.unsafeMake_apply]
    exact closesNullUnless_handOver (by decide) rfl
  · intro size
    rw [Epoll.unsafeCreate_apply]
    exact closesNullUnless_handOver (by decide) rfl
  · intro flags
    rw [Epoll.unsafeCreate1_apply]
    exact closesNullUnless_handOver (by decide) rfl
  · intro name mode option
    rw [Mq.unsafeOpen_apply]
    exact closesNullUnless_handOver (by decide) rfl
  · intro fd
    unfold opendirFd
    rw [openedDir_apply]
    exact closesNullUnless_handOver (by decide) rfl
  · intro path
    unfold opendir
    rw [openedDir_apply]
    exact closesNullUnless_handOver (by decide) rfl
  · intro path access flags
    rw [File.open_apply]
    exact closesNullUnless_handOver (by decide) rfl
  · intro path access flags perm
    rw [File.openPermission_apply]
    exact closesNullUnless_handOver (by decide) rfl
  · intro addr len prot flags fildes off
    rw [Mmap.map_apply]
    exact closesNullUnless_handOver (by decide) rfl

/-- A default-constructed directory stream that is destroyed calls `closedir` on null. -/
theorem closedir_null_of_default :
    ∃ s, Machine.run (step (descriptorClass dirPolicy) (Os.Table.kernel dirPolicy false))
        (State.init Os.Table.empty 0)
        ([.default (), .destroy () ⟨-1, 22, .nothing⟩] :
          List (Action Unit Response Ptr DescriptorMethod (Os.Other Ptr))) = some s ∧
      (calls s.log).map (fun c => c.call) = [.closedir 0] ∧ s.globals = 22 :=
  ⟨_, rfl, rfl, rfl⟩
