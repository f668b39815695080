-- SUMMARY: Pools of descriptors: conservation of handles, calls on null handles, and closes after a failed close.
import Pposix.Files.FileDescriptor
import Pposix.Os.Table
import Pposix.Owners.Exact
import Pposix.Owners.Ledger

/-!
# Pools of descriptors

`descriptor` as an owner class, for every close policy. Its only method that calls
the kernel is `close`.
-/

open Owners Os

inductive DescriptorMethod where
  | close

namespace Descriptor

variable {ι D κ E : Type} {P : Policy D}

/-- `close`, with its error dropped. -/
def closeMethod (w : Descriptor P) : Sys (Descriptor P) := do
  let (_, w) ← w.close
  return w

theorem closeMethod_apply (w : Descriptor P) (e : Errno) :
    w.closeMethod e = .call (P.call w.raw) fun r => .done (w.afterClose r, r.errno) := by
  have hclose : w.closeMethod e = (w.close e).bind fun x => .done (x.1.2, x.2) := rfl
  rw [hclose, close_apply]
  rfl

end Descriptor

def descriptorClass {D : Type} (P : Policy D) :
    Class Syscall Response Errno (Descriptor P) D DescriptorMethod where
  null := P.null
  raw := Descriptor.raw
  touches := P.handle
  empty := .default
  adopt := .ofRaw
  moveConstruct := Descriptor.moveConstruct
  assign v w := (v.moveAssign w).1
  release := some Descriptor.release
  method | .close => Descriptor.closeMethod
  destroy := Descriptor.destroy
  raw_empty := rfl
  raw_adopt _ := rfl
  raw_moveConstruct := Descriptor.raw_moveConstruct
  raw_assign := Descriptor.raw_moveAssign
  raw_release := by
    intro f hf w
    cases hf
    exact ⟨rfl, rfl⟩
  method_paths := by
    intro m w e
    cases m
    change (w.closeMethod e).Paths _
    rw [Descriptor.closeMethod_apply]
    refine fun r => ⟨⟨by simp, by simp [P.handle_call]⟩, ?_⟩
    rw [Descriptor.afterClose_raw]
    split
    · exact .inl rfl
    · exact .inr rfl
  destroy_paths := by
    intro w e
    rw [Descriptor.destroy_apply]
    exact fun r => ⟨by simp, by simp [P.handle_call]⟩

section Class

variable {ι D κ E : Type} (P : Policy D)

/-- `close` and the destructor hand the stored handle to the policy. -/
theorem descriptorClass_singleCall :
    (descriptorClass P).SingleCall fun _ d => P.call d where
  method
    | .close, w, e => ⟨_, Descriptor.closeMethod_apply w e⟩
  destroy w e := ⟨_, Descriptor.destroy_apply w e⟩

/-- `close` gives the handle up exactly when the policy reported success. -/
theorem descriptorClass_tidy [DecidableEq D] (drops : Bool) :
    (descriptorClass P).Tidy (Table.kernel P drops) := by
  intro m w e
  cases m
  change ((w : Descriptor P).closeMethod e).Paths _
  rw [Descriptor.closeMethod_apply]
  intro r
  change (Descriptor.afterClose w r).raw = P.null ↔ w.raw = P.null ∨ _
  rw [Descriptor.afterClose_raw]
  cases hr : r.errorCode.isError <;> simp [Table.kernel, P.handle_call, hr]

theorem descriptorClass_lawful [DecidableEq D] (drops : Bool) :
    (Table.kernel P drops).Lawful (descriptorClass P) Table.Owns (Table.Dropped drops) :=
  Table.lawful P drops (descriptorClass P) rfl id

end Class

/-! ## Conservation -/

section Conservation

variable {ι D : Type} [DecidableEq D] {P : Policy D} {drops : Bool}
  {s : Owners.State ι (Table D) Syscall Response Errno (Descriptor P) D}

/-- What accounting says of the pool and the table. -/
abbrev DescriptorsAccounted (P : Policy D) (drops : Bool)
    (s : Owners.State ι (Table D) Syscall Response Errno (Descriptor P) D) : Prop :=
  Accounted (descriptorClass P) (Table.kernel P drops) Table.Owns (Table.Dropped drops) s

/-- An object that stores a handle owns it: the handle is open in the table for the object. -/
theorem owned_of_accounted (h : DescriptorsAccounted P false s) {o : ι} {w : Slot (Descriptor P)}
    (ho : s.objs o = some w) (hraw : w.obj.raw ≠ P.null) :
    ∃ t, w.token = some t ∧ s.kernel.Owns t w.obj.raw := by
  have hv : s.view (descriptorClass P) o = some (w.obj.raw, w.token) := by
    rw [State.view_apply, ho]
    rfl
  cases ht : w.token with
  | none => exact absurd ((h.safe.held.none_iff hv).mp ht) hraw
  | some t =>
    rw [ht] at hv
    refine ⟨t, rfl, (h.safe.held.good hv).2 ?_⟩
    exact h.conserved.intact ⟨_, hv⟩ fun hd => Bool.false_ne_true hd.1

/-- Two objects that store the same handle are one object. -/
theorem exclusive_of_accounted (h : DescriptorsAccounted P false s) {o o' : ι}
    {w w' : Slot (Descriptor P)} (ho : s.objs o = some w) (ho' : s.objs o' = some w')
    (heq : w.obj.raw = w'.obj.raw) (hraw : w.obj.raw ≠ P.null) : o = o' := by
  obtain ⟨t, ht, hown⟩ := owned_of_accounted h ho hraw
  obtain ⟨t', ht', hown'⟩ := owned_of_accounted h ho' (heq ▸ hraw)
  obtain rfl : t = t' := hown.eq_token (heq ▸ hown')
  have hv : s.view (descriptorClass P) o = some (w.obj.raw, some t) := by
    rw [State.view_apply, ho, ← ht]
    rfl
  have hv' : s.view (descriptorClass P) o' = some (w'.obj.raw, some t) := by
    rw [State.view_apply, ho', ← ht']
    rfl
  exact h.safe.held.exclusive hv hv'

/-- A successful close was made by an object on the handle that it owned. -/
theorem close_owned (h : DescriptorsAccounted P drops s) {c : Call (Table D) Syscall Response D}
    (hc : c ∈ calls s.log) (hends : (Table.kernel P drops).Ends c) :
    P.handle c.call = some c.raw ∧ ∃ t, c.token = some t ∧ c.before.Owns t c.raw := by
  obtain ⟨htouch, howner⟩ := h.safe.rightful c hc
  have htouch : P.handle c.call = some c.raw := htouch
  refine ⟨htouch, ?_⟩
  cases ht : c.token with
  | none =>
    -- No close of the null handle succeeds.
    rw [ht] at howner
    obtain ⟨k', hk'⟩ := Option.isSome_iff_exists.mp (h.ledger.answered c hc)
    obtain ⟨-, ⟨hnone, -⟩ | ⟨d, hd, ⟨herr, -⟩ | ⟨-, hne, -, -⟩⟩⟩ := Table.answer_cases hk'
    · rw [htouch] at hnone
      cases hnone
    · have hend : ((P.handle c.call).isSome && !c.answer.errorCode.isError) = true := hends
      simp [herr] at hend
    · rw [htouch] at hd
      cases hd
      exact absurd howner hne
  | some t =>
    rw [ht] at howner
    exact ⟨t, rfl, howner⟩

variable [DecidableEq ι]

theorem descriptorClass_accounted {k : Table D} {e : Errno}
    {as : List (Action ι Response D DescriptorMethod (Other D))}
    (hG : Machine.Guarded (step (descriptorClass P) (Table.kernel P drops))
      (Undropped (Table.Dropped drops)) (State.init k e) as) :
    Machine.Always (step (descriptorClass P) (Table.kernel P drops)) (DescriptorsAccounted P drops)
      (State.init k e) as :=
  accounted_of_undropped (descriptorClass_lawful P drops) (descriptorClass_tidy P drops)
    (descriptorClass_singleCall P).diligent hG

/-- A kernel that drops nothing never takes a resource away. -/
theorem undropped_of_false (as : List (Action ι Response D DescriptorMethod (Other D)))
    (s : Owners.State ι (Table D) Syscall Response Errno (Descriptor P) D) :
    Machine.Guarded (step (descriptorClass P) (Table.kernel P false))
      (Undropped (Table.Dropped false)) s as := by
  refine .of_forall (fun s a => ?_) as s
  have hkept : ∀ t, ¬ Table.Dropped false s.kernel t := fun t h => Bool.false_ne_true h.1
  cases a with
  | method o m r => exact fun _ _ t _ => hkept t
  | destroy o r => exact fun _ _ t _ => hkept t
  | _ => trivial

/-- In every state of every run, each handle that was given to an object is in exactly
one place, no two objects store it, and it is closed successfully at most once, by the
object that owns it. -/
theorem Descriptor.pool_conserved (P : Policy D) (k : Table D) (e : Errno)
    (as : List (Action ι Response D DescriptorMethod (Other D))) :
    Machine.Always (step (descriptorClass P) (Table.kernel P false)) (fun s =>
      (∀ t d, .adopted t d ∈ s.log →
        ∃! pl : Place ι, Located (Table.kernel P false) (s.view (descriptorClass P)) s.log t d pl) ∧
      (∀ o w, s.objs o = some w → w.obj.raw ≠ P.null →
        ∃ t, w.token = some t ∧ .adopted t w.obj.raw ∈ s.log ∧ s.kernel.Owns t w.obj.raw) ∧
      (∀ o o' w w', s.objs o = some w → s.objs o' = some w' → w.obj.raw = w'.obj.raw →
        w.obj.raw ≠ P.null → o = o') ∧
      (∀ t, ((calls s.log).filter fun c =>
        (Table.kernel P false).Ends c ∧ c.token = some t).length ≤ 1) ∧
      (∀ c ∈ calls s.log, (Table.kernel P false).Ends c →
        P.handle c.call = some c.raw ∧ ∃ t, c.token = some t ∧ c.before.Owns t c.raw) ∧
      (∀ l t, l ++ [.abandoned t] <+: s.log →
        ∃ l₀ c, l = l₀ ++ [.called c] ∧ c.token = some t ∧ ¬ (Table.kernel P false).Ends c))
      (State.init k e) as := by
  refine (descriptorClass_accounted (undropped_of_false as _)).mono fun s h => ?_
  refine ⟨?_, ?_, ?_, h.safe.ends_once, ?_, ?_⟩
  · exact fun t d ht => h.ledger.existsUnique_located h.safe h.conserved ht
  · intro o w ho hraw
    obtain ⟨t, ht, hown⟩ := owned_of_accounted h ho hraw
    have hv : s.view (descriptorClass P) o = some (w.obj.raw, some t) := by
      rw [State.view_apply, ho, ← ht]
      rfl
    exact ⟨t, ht, h.ledger.held hv, hown⟩
  · exact fun o o' w w' ho ho' heq hraw => exclusive_of_accounted h ho ho' heq hraw
  · exact fun c hc hends => close_owned h hc hends
  · exact fun l t hl => h.ledger.abandoned hl

end Conservation

/-! ## Calls on the null handle -/

section Null

variable {ι D κ E : Type} {P : Policy D}
  {s s' : Owners.State ι κ Syscall Response Errno (Descriptor P) D}

/-- The objects that `close` and the destructor run on store a handle. -/
def ActsOnHandle (s : Owners.State ι κ Syscall Response Errno (Descriptor P) D) :
    Action ι Response D DescriptorMethod E → Prop
  | .method o _ _ | .destroy o _ => ∀ w ∈ s.objs o, w.obj.raw ≠ P.null
  | _ => True

/-- The close policy is given the handle that the object stores, and that is not null. -/
def OnHandle (P : Policy D) (c : Call κ Syscall Response D) : Prop :=
  c.call = P.call c.raw ∧ c.raw ≠ P.null

/-- The calls of an action are on handles exactly when its object stores one. -/
theorem actionCalls_onHandle (a : Action ι Response D DescriptorMethod E) :
    (∀ c ∈ actionCalls (descriptorClass P) (fun _ d => P.call d) s a, OnHandle P c) ↔
      ActsOnHandle s a := by
  cases a with
  | method o m r => simp [actionCalls, ActsOnHandle, OnHandle, descriptorClass]
  | destroy o r => simp [actionCalls, ActsOnHandle, OnHandle, descriptorClass]
  | _ => simp [actionCalls, ActsOnHandle]

variable [DecidableEq ι] [DecidableEq D] {K : Kernel κ Syscall Response D E}

/-- Against any kernel, the policy gets a handle at every call of a run exactly when no
step of it closes or destroys an object without one. -/
theorem onHandle_iff_guarded (k : κ) (e : Errno)
    (as : List (Action ι Response D DescriptorMethod E)) :
    Machine.Always (step (descriptorClass P) K) (fun s => ∀ c ∈ calls s.log, OnHandle P c)
        (State.init k e) as ↔
      Machine.Guarded (step (descriptorClass P) K) ActsOnHandle (State.init k e) as := by
  refine Machine.always_iff_guarded id ?_ ?_ (by simp [State.init, calls])
  · intro s a s' hs hG hstep
    rw [(descriptorClass_singleCall P).step_calls hstep]
    simpa [or_imp, forall_and] using ⟨hs, (actionCalls_onHandle a).mpr hG⟩
  · intro s a s' _ hstep hs'
    rw [(descriptorClass_singleCall P).step_calls hstep] at hs'
    exact (actionCalls_onHandle a).mp fun c hc => hs' c (List.mem_append_right _ hc)

end Null

/-! ## Closing after a failed close -/

section Stale

variable {ι D : Type} [DecidableEq ι] [DecidableEq D]

/-- The close policy is given a handle that the kernel has open for another owner. -/
def Stale (P : Policy D) (c : Call (Table D) Syscall Response D) : Prop :=
  c.raw ≠ P.null ∧ ∃ f, c.before.slots c.raw = some f ∧ f.owner ≠ c.token

/-- While no object acts after the kernel released the number of a failed close, no
close is stale. -/
theorem Descriptor.no_stale_close (P : Policy D) (k : Table D) (e : Errno)
    (as : List (Action ι Response D DescriptorMethod (Other D)))
    (hG : Machine.Guarded (step (descriptorClass P) (Table.kernel P true))
      (Undropped (Table.Dropped true)) (State.init k e) as) :
    Machine.Always (step (descriptorClass P) (Table.kernel P true))
      (fun s => ∀ c ∈ calls s.log, P.handle c.call = some c.raw ∧ ¬ Stale P c)
      (State.init k e) as := by
  refine (descriptorClass_accounted hG).mono fun s h c hc => ?_
  obtain ⟨htouch, howner⟩ := h.safe.rightful c hc
  refine ⟨htouch, ?_⟩
  rintro ⟨hraw, f, hf, hforeign⟩
  cases ht : c.token with
  | none =>
    rw [ht] at howner
    exact hraw howner
  | some t =>
    rw [ht] at howner hforeign
    obtain ⟨f', hf', hown⟩ := howner
    rw [hf] at hf'
    cases hf'
    exact hforeign hown

/-- A retry that succeeds is no stale close while the number stays open. -/
theorem Descriptor.no_stale_close_retry :
    Machine.Always (step (descriptorClass fdPolicy) (Table.kernel fdPolicy true))
      (fun s => ∀ c ∈ calls s.log, fdPolicy.handle c.call = some c.raw ∧ ¬ Stale fdPolicy c)
      (State.init Table.empty 0)
      ([.adopt () 3, .method () .close ⟨-1, 4, .nothing⟩, .destroy () ⟨0, 0, .nothing⟩] :
        List (Action Unit Response Int DescriptorMethod (Other Int))) :=
  Descriptor.no_stale_close fdPolicy Table.empty 0 _ (by decide)

/-- A failed close, a number that is released and issued again, and a destructor. -/
def staleRun : List (Action Unit Response Int DescriptorMethod (Other Int)) :=
  [.adopt () 3, .method () .close ⟨-1, 4, .nothing⟩, .other (.drop 3), .other (.open_ 3),
    .destroy () ⟨0, 0, .nothing⟩]

theorem Descriptor.stale_close_of_failure :
    ∃ s, Machine.run (step (descriptorClass fdPolicy) (Table.kernel fdPolicy true))
        (State.init Table.empty 0) staleRun = some s ∧
      ∃ c ∈ calls s.log, Stale fdPolicy c ∧ c.call = .close 3 ∧ c.answer.ret = 0 := by
  refine ⟨_, rfl, _, .tail _ (.head _), ⟨?_, ⟨none, false⟩, rfl, ?_⟩, rfl, rfl⟩
  · decide
  · decide

end Stale
