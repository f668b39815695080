-- SUMMARY: The kernel's table of open handles, with owners, failed closes and reuse of numbers.
import Pposix.Core.Descriptor
import Pposix.Owners.Safety

/-!
# The table of open handles

A handle is open while the table has an entry for it. A successful close removes
the entry, whoever made the call, and after that the handle can be issued again.
POSIX leaves open what a failed close does to the number. With `drops` the kernel
may release it at any time after the failure, else the number stays open.
-/

namespace Os

open Owners

structure OpenFile where
  /-- The token of the resource when an object opened it; `none` when other code did. -/
  owner : Option Nat
  /-- A close of this handle failed. -/
  failed : Bool
  deriving DecidableEq, Repr

structure Table (D : Type) where
  next : Nat
  slots : D → Option OpenFile
  /-- The tokens whose number the kernel released after a failed close. -/
  dropped : List Nat

/-- What other code and the kernel do by themselves. -/
inductive Other (D : Type) where
  | open_ (d : D)
  | close (d : D)
  /-- A number whose close failed is released. -/
  | drop (d : D)

namespace Table

variable {D : Type} [DecidableEq D]

/-- Before anything is open. -/
def empty : Table D := ⟨0, fun _ => none, []⟩

/-- A free handle that is not null is given to an owner. -/
def openFor (P : Policy D) (k : Table D) (d : D) (owner : Option Nat) : Option (Table D) :=
  if d ≠ P.null ∧ k.slots d = none then
    some { k with slots := Function.update k.slots d (some ⟨owner, false⟩) }
  else none

def remove (k : Table D) (d : D) : Table D :=
  { k with slots := Function.update k.slots d none }

def markFailed (k : Table D) (d : D) : Table D :=
  { k with slots := Function.update k.slots d ((k.slots d).map fun f => { f with failed := true }) }

/-- A close succeeds only on an open handle. A call that fails leaves an error code
that says so, and calls that close nothing leave the table as it is. -/
def answer (P : Policy D) (k : Table D) (c : Syscall) (r : Response) : Option (Table D) :=
  if r.Posix then
    match P.handle c with
    | none => some k
    | some d =>
      if r.errorCode.isError then some (k.markFailed d)
      else if d ≠ P.null ∧ (k.slots d).isSome then some (k.remove d) else none
  else none

/-- The caller of `release` owns the resource now. -/
def disown (k : Table D) (t : Nat) : Table D :=
  { k with slots := fun d => (k.slots d).map fun f =>
      if f.owner = some t then { f with owner := none } else f }

def other (P : Policy D) (drops : Bool) (k : Table D) : Other D → Option (Table D)
  | .open_ d => k.openFor P d none
  | .close d =>
    match k.slots d with
    | some ⟨none, _⟩ => some (k.remove d)
    | _ => none
  | .drop d =>
    match k.slots d with
    | some ⟨owner, true⟩ =>
      if drops then some { k.remove d with dropped := owner.toList ++ k.dropped } else none
    | _ => none

def kernel (P : Policy D) (drops : Bool) : Kernel (Table D) Syscall Response D (Other D) where
  fresh := Table.next
  issue k d := (k.openFor P d (some k.next)).map fun k' => { k' with next := k.next + 1 }
  answer := answer P
  release := disown
  other := other P drops
  ends c r := (P.handle c).isSome && !r.errorCode.isError

/-- The handle is open and belongs to the object that acquired `t`. -/
def Owns (k : Table D) (t : Nat) (d : D) : Prop := ∃ f, k.slots d = some f ∧ f.owner = some t

/-- The kernel released the number of `t` after a failed close. -/
def Dropped (drops : Bool) (k : Table D) (t : Nat) : Prop := drops = true ∧ t ∈ k.dropped

instance (drops : Bool) (k : Table D) (t : Nat) : Decidable (Dropped drops k t) :=
  inferInstanceAs (Decidable (_ ∧ _))

/-! ## What the operations do to ownership -/

variable {P : Policy D} {k k' : Table D} {t u : Nat} {d d' : D}

omit [DecidableEq D] in
theorem Owns.eq_token (h : k.Owns t d) (h' : k.Owns u d) : t = u := by
  obtain ⟨f, hf, ht⟩ := h
  obtain ⟨f', hf', hu⟩ := h'
  rw [hf] at hf'
  cases hf'
  exact Option.some.inj (ht.symm.trans hu)

theorem Owns.remove (h : k.Owns u d') (hd : d' ≠ d) : (k.remove d).Owns u d' := by
  obtain ⟨f, hf, hu⟩ := h
  exact ⟨f, (Function.update_of_ne hd ..).trans hf, hu⟩

theorem Owns.markFailed (h : k.Owns u d') : (k.markFailed d).Owns u d' := by
  obtain ⟨f, hf, hu⟩ := h
  by_cases hd : d' = d
  · subst hd
    exact ⟨{ f with failed := true }, by simp [Table.markFailed, hf], hu⟩
  · exact ⟨f, (Function.update_of_ne hd ..).trans hf, hu⟩

theorem Owns.openFor {owner : Option Nat} (h : k.Owns u d')
    (hopen : k.openFor P d owner = some k') : k'.Owns u d' := by
  obtain ⟨f, hf, hu⟩ := h
  unfold Table.openFor at hopen
  split at hopen
  · rename_i hfree
    cases hopen
    have hd : d' ≠ d := by
      rintro rfl
      rw [hfree.2] at hf
      cases hf
    exact ⟨f, (Function.update_of_ne hd ..).trans hf, hu⟩
  · cases hopen

theorem openFor_cases {owner : Option Nat} (h : k.openFor P d owner = some k') :
    d ≠ P.null ∧ k.slots d = none ∧ k'.next = k.next ∧ k'.dropped = k.dropped ∧
      k'.slots d = some ⟨owner, false⟩ := by
  unfold openFor at h
  split at h
  · rename_i hfree
    cases h
    exact ⟨hfree.1, hfree.2, rfl, rfl, by simp⟩
  · cases h

/-- An answered call closed an open handle, or left every owner in place. -/
theorem answer_cases {c : Syscall} {r : Response} (h : answer P k c r = some k') :
    r.Posix ∧
      ((P.handle c = none ∧ k' = k) ∨
        ∃ d, P.handle c = some d ∧
          ((r.errorCode.isError = true ∧ k' = k.markFailed d) ∨
            (r.errorCode.isError = false ∧ d ≠ P.null ∧ (k.slots d).isSome ∧ k' = k.remove d))) := by
  unfold answer at h
  split at h
  · rename_i hposix
    refine ⟨hposix, ?_⟩
    split at h
    · rename_i hc
      cases h
      exact .inl ⟨hc, rfl⟩
    · rename_i d hc
      refine .inr ⟨d, hc, ?_⟩
      split at h
      · rename_i herr
        cases h
        exact .inl ⟨herr, rfl⟩
      · rename_i herr
        split at h
        · rename_i hd
          cases h
          exact .inr ⟨by simpa using herr, hd.1, hd.2, rfl⟩
        · cases h
  · cases h

theorem answer_static {c : Syscall} {r : Response} (h : answer P k c r = some k') :
    k'.next = k.next ∧ k'.dropped = k.dropped := by
  obtain ⟨-, ⟨-, rfl⟩ | ⟨d, -, ⟨-, rfl⟩ | ⟨-, -, -, rfl⟩⟩⟩ := answer_cases h <;> exact ⟨rfl, rfl⟩

/-- Other code closes only what it owns, and a dropped number is recorded. -/
theorem other_cases {drops : Bool} {e : Other D} (h : other P drops k e = some k') :
    k'.next = k.next ∧ (∀ t, t ∈ k.dropped → t ∈ k'.dropped) ∧
      ∀ t d, k.Owns t d → ¬ Dropped drops k' t → k'.Owns t d := by
  cases e with
  | open_ d =>
    obtain ⟨-, -, hnext, hdropped, -⟩ := openFor_cases h
    exact ⟨hnext, fun t ht => hdropped ▸ ht, fun t d' ho _ => ho.openFor h⟩
  | close d =>
    simp only [other] at h
    split at h
    · rename_i b hd
      cases h
      refine ⟨rfl, fun t ht => ht, fun t d' ho _ => ho.remove ?_⟩
      rintro rfl
      obtain ⟨f, hf, hown⟩ := ho
      rw [hd] at hf
      cases hf
      cases hown
    · cases h
  | drop d =>
    simp only [other] at h
    split at h
    · rename_i owner hd
      split at h
      · rename_i hdrops
        cases h
        refine ⟨rfl, fun t ht => List.mem_append_right _ ht, fun t d' ho hkept => ho.remove ?_⟩
        rintro rfl
        obtain ⟨f, hf, hown⟩ := ho
        rw [hd] at hf
        cases hf
        cases hown
        exact hkept ⟨hdrops, by simp⟩
      · cases h
    · cases h

/-- The table respects ownership, for every class whose objects close through the policy. -/
theorem lawful {Γ W M : Type} (P : Policy D) (drops : Bool)
    (X : Class Syscall Response Γ W D M) (hnull : X.null = P.null)
    (htouch : ∀ {c d}, P.handle c = some d → X.touches c = some d) :
    (kernel P drops).Lawful X Owns (Dropped drops) where
  issue_fresh := by
    intro k d k' h
    obtain ⟨k₁, -, rfl⟩ := Option.map_eq_some_iff.mp h
    rfl
  issue_ne_null := by
    intro k d k' h
    obtain ⟨k₁, h₁, rfl⟩ := Option.map_eq_some_iff.mp h
    exact hnull ▸ (openFor_cases h₁).1
  issue_owns := by
    intro k d k' h
    obtain ⟨k₁, h₁, rfl⟩ := Option.map_eq_some_iff.mp h
    exact ⟨_, (openFor_cases h₁).2.2.2.2, rfl⟩
  issue_keeps := by
    intro k d k' t d' h ho
    obtain ⟨k₁, h₁, rfl⟩ := Option.map_eq_some_iff.mp h
    have ho₁ : k₁.Owns t d' := ho.openFor h₁
    exact ho₁
  issue_gone := by
    intro k d k' t h hg
    obtain ⟨k₁, h₁, rfl⟩ := Option.map_eq_some_iff.mp h
    exact ⟨hg.1, (openFor_cases h₁).2.2.2.1 ▸ hg.2⟩
  answer_fresh := fun h => (answer_static h).1
  answer_gone := fun h hg => ⟨hg.1, (answer_static h).2 ▸ hg.2⟩
  answer_null := by
    intro k c r k' t d h hc ho
    obtain ⟨-, ⟨-, rfl⟩ | ⟨d', hd', ⟨-, rfl⟩ | ⟨-, hne, -, -⟩⟩⟩ := answer_cases h
    · exact ho
    · exact ho.markFailed
    · exact absurd (Option.some.inj ((htouch hd').symm.trans hc)) (hnull ▸ hne)
  answer_self := by
    intro k c r k' t d h hc hends ho
    obtain ⟨-, ⟨-, rfl⟩ | ⟨d', hd', ⟨-, rfl⟩ | ⟨hok, -, -, -⟩⟩⟩ := answer_cases h
    · exact ho
    · exact ho.markFailed
    · simp [kernel, hd', hok] at hends
  answer_keeps := by
    intro k c r k' t u d d₁ h hc ho htu hu
    obtain ⟨-, ⟨-, rfl⟩ | ⟨d', hd', ⟨-, rfl⟩ | ⟨-, -, -, rfl⟩⟩⟩ := answer_cases h
    · exact hu
    · exact hu.markFailed
    · obtain rfl : d' = d := Option.some.inj ((htouch hd').symm.trans hc)
      apply hu.remove
      rintro rfl
      exact htu (ho.eq_token hu)
  release_fresh := rfl
  release_gone := fun hg => hg
  release_keeps := by
    rintro k t u d htu ⟨f, hf, hu⟩
    have hne : f.owner ≠ some t := by
      rw [hu]
      exact fun h => htu (Option.some.inj h).symm
    exact ⟨f, by simp [kernel, disown, hf, hne], hu⟩
  other_fresh := fun h => Nat.le_of_eq (other_cases h).1.symm
  other_gone := fun h hg => ⟨hg.1, (other_cases h).2.1 _ hg.2⟩
  other_keeps := fun h hg ho => (other_cases h).2.2 _ _ ho hg

end Table

end Os
