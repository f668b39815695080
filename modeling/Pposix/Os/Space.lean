-- SUMMARY: The address space as pages with owners, and what mapping and unmapping do to it.
import Pposix.Memory.Mman
import Pposix.Owners.Safety

/-!
# The address space

A page is free, or mapped for an owner. A range stands for the pages that hold any
part of it. A mapping is placed on free pages. A successful `munmap` frees every
page of its range, whoever mapped it.
-/

namespace Os

open Owners

structure Space where
  next : Nat
  /-- The owner of a mapped page: the token of the object's range, or `none` when
  other code mapped it. -/
  page : Int → Option (Option Nat)

/-- Mappings made and removed by other code. -/
inductive Mapper where
  | map (d : MmapD)
  | unmap (d : MmapD)

namespace Space

/-- The pages of a range, of `size` bytes each. -/
def pages (size : Nat) (d : MmapD) : List Int :=
  if d.length = 0 then []
  else
    let first := d.address / size
    let last := (d.address + d.length.toNat - 1) / size
    (List.range (last - first + 1).toNat).map fun i : Nat => first + i

/-- Before anything is mapped. -/
def empty : Space := ⟨0, fun _ => none⟩

variable (size : Nat)

/-- A mapping of at least one byte on free pages. -/
def mapFor (k : Space) (d : MmapD) (owner : Option Nat) : Option Space :=
  if d.length ≠ 0 ∧ ∀ q ∈ pages size d, k.page q = none then
    some { k with page := fun q => if q ∈ pages size d then some owner else k.page q }
  else none

def free (k : Space) (d : MmapD) : Space :=
  { k with page := fun q => if q ∈ pages size d then none else k.page q }

/-- `munmap` rejects an empty range. -/
def answer (k : Space) (c : Syscall) (r : Response) : Option Space :=
  if r.Posix then
    match mmapPolicy.handle c with
    | none => some k
    | some d =>
      if r.errorCode.isError then some k
      else if d.length ≠ 0 then some (k.free size d) else none
  else none

def disown (k : Space) (t : Nat) : Space :=
  { k with page := fun q => (k.page q).map fun owner => if owner = some t then none else owner }

def other (k : Space) : Mapper → Option Space
  | .map d => k.mapFor size d none
  | .unmap d =>
    if ∀ q ∈ pages size d, (k.page q).getD none = none then some (k.free size d) else none

def kernel : Kernel Space Syscall Response MmapD Mapper where
  fresh := Space.next
  issue k d := (k.mapFor size d (some k.next)).map fun k' => { k' with next := k.next + 1 }
  answer := answer size
  release := disown
  other := other size
  ends c r := (mmapPolicy.handle c).isSome && !r.errorCode.isError

/-- Every page of the range is mapped for the object that acquired `t`. -/
def Owns (k : Space) (t : Nat) (d : MmapD) : Prop := ∀ q ∈ pages size d, k.page q = some (some t)

/-! ## What the operations do to ownership -/

variable {size} {k k' : Space} {t u : Nat} {d d' : MmapD}

theorem Owns.free (h : k.Owns size u d') (hd : ∀ q ∈ pages size d, k.page q ≠ some (some u)) :
    (k.free size d).Owns size u d' := by
  intro q hq
  have hqd : q ∉ pages size d := fun hqd => hd q hqd (h q hq)
  simp [Space.free, hqd, h q hq]

theorem mapFor_cases {owner : Option Nat} (h : k.mapFor size d owner = some k') :
    d.length ≠ 0 ∧ k'.next = k.next ∧ (∀ q ∈ pages size d, k'.page q = some owner) ∧
      ∀ u d', k.Owns size u d' → k'.Owns size u d' := by
  unfold mapFor at h
  split at h
  · rename_i hfree
    cases h
    refine ⟨hfree.1, rfl, fun q hq => by simp [hq], fun u d' ho q hq => ?_⟩
    have hqd : q ∉ pages size d := fun hqd => by
      have hnone := hfree.2 q hqd
      rw [ho q hq] at hnone
      cases hnone
    simp [hqd, ho q hq]
  · cases h

/-- An answered call freed a range, or left the pages as they were. -/
theorem answer_cases {c : Syscall} {r : Response} (h : answer size k c r = some k') :
    k' = k ∨ ∃ d, mmapPolicy.handle c = some d ∧ r.errorCode.isError = false ∧ d.length ≠ 0 ∧
      k' = k.free size d := by
  unfold answer at h
  split at h
  · split at h
    · cases h
      exact .inl rfl
    · rename_i d hc
      split at h
      · cases h
        exact .inl rfl
      · rename_i herr
        split at h
        · rename_i hlen
          cases h
          exact .inr ⟨d, hc, by simpa using herr, hlen, rfl⟩
        · cases h
  · cases h

theorem answer_next {c : Syscall} {r : Response} (h : answer size k c r = some k') :
    k'.next = k.next := by
  obtain rfl | ⟨d, -, -, -, rfl⟩ := answer_cases h <;> rfl

theorem other_cases {e : Mapper} (h : other size k e = some k') :
    k'.next = k.next ∧ ∀ u d', k.Owns size u d' → k'.Owns size u d' := by
  cases e with
  | map d =>
    obtain ⟨-, hnext, -, hkeep⟩ := mapFor_cases h
    exact ⟨hnext, hkeep⟩
  | unmap d =>
    simp only [other] at h
    split at h
    · rename_i hforeign
      cases h
      refine ⟨rfl, fun u d' ho => ho.free fun q hq hown => ?_⟩
      simpa [hown] using hforeign q hq
    · cases h

/-- The address space respects ownership, for every class whose objects unmap through
the policy. -/
theorem lawful {Γ W M : Type} (size : Nat) (X : Class Syscall Response Γ W MmapD M)
    (hnull : X.null = mmapPolicy.null)
    (htouch : ∀ {c d}, mmapPolicy.handle c = some d → X.touches c = some d) :
    (kernel size).Lawful X (Owns size) (fun _ _ => False) where
  issue_fresh := by
    intro k d k' h
    obtain ⟨k₁, -, rfl⟩ := Option.map_eq_some_iff.mp h
    rfl
  issue_ne_null := by
    intro k d k' h
    obtain ⟨k₁, h₁, rfl⟩ := Option.map_eq_some_iff.mp h
    rw [hnull]
    rintro rfl
    exact (mapFor_cases h₁).1 rfl
  issue_owns := by
    intro k d k' h
    obtain ⟨k₁, h₁, rfl⟩ := Option.map_eq_some_iff.mp h
    exact (mapFor_cases h₁).2.2.1
  issue_keeps := by
    intro k d k' t d' h ho
    obtain ⟨k₁, h₁, rfl⟩ := Option.map_eq_some_iff.mp h
    exact (mapFor_cases h₁).2.2.2 _ _ ho
  issue_gone := fun _ h => h
  answer_fresh := answer_next
  answer_gone := fun _ h => h
  answer_null := by
    intro k c r k' t d h hc ho
    obtain rfl | ⟨d', hd', -, hlen, rfl⟩ := answer_cases h
    · exact ho
    · have heq : d' = mmapPolicy.null := hnull ▸ Option.some.inj ((htouch hd').symm.trans hc)
      rw [heq] at hlen
      exact absurd rfl hlen
  answer_self := by
    intro k c r k' t d h hc hends ho
    obtain rfl | ⟨d', hd', hok, -, rfl⟩ := answer_cases h
    · exact ho
    · simp [kernel, hd', hok] at hends
  answer_keeps := by
    intro k c r k' t u d d₁ h hc ho htu hu
    obtain rfl | ⟨d', hd', -, -, rfl⟩ := answer_cases h
    · exact hu
    · obtain rfl : d' = d := Option.some.inj ((htouch hd').symm.trans hc)
      refine hu.free fun q hq hown => htu ?_
      exact Option.some.inj (Option.some.inj ((ho q hq).symm.trans hown))
  release_fresh := rfl
  release_gone := fun h => h
  release_keeps := by
    intro k t u d htu hu q hq
    have hne : some u ≠ some t := fun h => htu (Option.some.inj h).symm
    simp [kernel, disown, hu q hq, Ne.symm htu]
  other_fresh := fun h => Nat.le_of_eq (other_cases h).1.symm
  other_gone := fun _ h => h
  other_keeps := fun h _ ho => (other_cases h).2 _ _ ho

end Space

end Os
