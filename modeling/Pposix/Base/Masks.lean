-- SUMMARY: Masks whose bits have names: the set that a mask denotes, and what the bitwise operations do to it.
import Mathlib.Data.Set.Insert

/-!
# Masks as sets

A layout gives each name a bit of its own. A mask then denotes a set of names. Bits
without a name are in no set, so a mask is determined by its set only when all its bits
have names.
-/

/-- Names for the bits of a mask of `w` bits. -/
structure Layout (ι : Type) (w : Nat) where
  bit : ι → Nat
  bit_lt : ∀ i, bit i < w
  bit_injective : Function.Injective bit

namespace Layout

variable {ι α : Type} {w : Nat} (L : Layout ι w)

/-- The mask with the bit of one name. -/
def single (i : ι) : BitVec w := BitVec.twoPow w (L.bit i)

/-- The names whose bits are set. -/
def denote (m : BitVec w) : Set ι := {i | m.getLsbD (L.bit i) = true}

/-- Every bit that is set has a name. -/
def Named (m : BitVec w) : Prop := ∀ k, m.getLsbD k = true → ∃ i, L.bit i = k

variable {L} {i : ι} {m m' : BitVec w}

theorem mem_denote : i ∈ L.denote m ↔ m.getLsbD (L.bit i) = true := Iff.rfl

/-! ## Operations -/

theorem getLsbD_single {k : Nat} : (L.single i).getLsbD k = true ↔ L.bit i = k := by
  rw [single, BitVec.getLsbD_twoPow, Bool.and_eq_true, decide_eq_true_iff, decide_eq_true_iff]
  exact and_iff_right (L.bit_lt i)

@[simp] theorem denote_zero : L.denote 0 = ∅ := by
  ext i
  simp [mem_denote]

@[simp] theorem denote_single : L.denote (L.single i) = {i} := by
  ext j
  rw [mem_denote, getLsbD_single, Set.mem_singleton_iff, L.bit_injective.eq_iff, eq_comm]

@[simp] theorem denote_or : L.denote (m ||| m') = L.denote m ∪ L.denote m' := by
  ext i
  simp [mem_denote]

@[simp] theorem denote_and : L.denote (m &&& m') = L.denote m ∩ L.denote m' := by
  ext i
  simp [mem_denote]

/-- A mask meets the mask of one name when it has that name. -/
theorem and_single_ne_zero : m &&& L.single i ≠ 0 ↔ i ∈ L.denote m := by
  constructor
  · intro hne
    by_contra hi
    apply hne
    rw [mem_denote] at hi
    rw [single, BitVec.and_twoPow, if_neg hi]
    rfl
  · intro hi hzero
    have hboth : i ∈ L.denote (m &&& L.single i) := by
      rw [denote_and, denote_single]
      exact ⟨hi, rfl⟩
    rw [hzero, denote_zero] at hboth
    exact hboth

/-- To join the mask of one name changes nothing when the name is there. -/
theorem or_single_eq_iff : m ||| L.single i = m ↔ i ∈ L.denote m := by
  constructor
  · intro h
    rw [← h, denote_or, denote_single]
    exact .inr rfl
  · intro h
    apply BitVec.eq_of_getLsbD_eq
    intro k _
    rw [BitVec.getLsbD_or, Bool.or_eq_left_iff_imp, getLsbD_single]
    rintro rfl
    exact h

/-! ## Loops that collect bits -/

/-- A bit is set after the loop when it was set before or in one of the items. -/
theorem getLsbD_foldl_or (f : α → BitVec w) (l : List α) (m : BitVec w) (k : Nat) :
    (l.foldl (fun m a => m ||| f a) m).getLsbD k = true ↔
      m.getLsbD k = true ∨ ∃ a ∈ l, (f a).getLsbD k = true := by
  induction l generalizing m with
  | nil => simp
  | cons a l ih =>
    rw [List.foldl_cons, ih, BitVec.getLsbD_or, Bool.or_eq_true]
    simp only [List.mem_cons, exists_eq_or_imp, or_assoc]

theorem denote_foldl_or (f : α → BitVec w) (l : List α) (m : BitVec w) :
    L.denote (l.foldl (fun m a => m ||| f a) m) =
      L.denote m ∪ {i | ∃ a ∈ l, i ∈ L.denote (f a)} := by
  ext i
  exact getLsbD_foldl_or f l m (L.bit i)

/-! ## Masks without other bits -/

theorem named_zero : L.Named 0 := by
  intro k hk
  simp at hk

theorem named_single (i : ι) : L.Named (L.single i) :=
  fun _ hk => ⟨i, getLsbD_single.mp hk⟩

theorem Named.or (h : L.Named m) (h' : L.Named m') : L.Named (m ||| m') := by
  intro k hk
  rw [BitVec.getLsbD_or, Bool.or_eq_true] at hk
  exact hk.elim (h k) (h' k)

theorem Named.and (h : L.Named m) : L.Named (m &&& m') := by
  intro k hk
  rw [BitVec.getLsbD_and, Bool.and_eq_true] at hk
  exact h k hk.1

theorem Named.foldl_or {f : α → BitVec w} {l : List α} (h : L.Named m)
    (hf : ∀ a ∈ l, L.Named (f a)) : L.Named (l.foldl (fun m a => m ||| f a) m) := by
  intro k hk
  rcases (getLsbD_foldl_or f l m k).mp hk with hm | ⟨a, ha, hbit⟩
  · exact h k hm
  · exact hf a ha k hbit

/-- Masks that have no other bits are the same when they denote the same set. -/
theorem Named.eq_iff (h : L.Named m) (h' : L.Named m') : m = m' ↔ L.denote m = L.denote m' := by
  constructor
  · rintro rfl
    rfl
  · intro hset
    apply BitVec.eq_of_getLsbD_eq
    intro k _
    rw [Bool.eq_iff_iff]
    constructor
    · intro hk
      obtain ⟨i, rfl⟩ := h k hk
      exact (Set.ext_iff.mp hset i).mp hk
    · intro hk
      obtain ⟨i, rfl⟩ := h' k hk
      exact (Set.ext_iff.mp hset i).mpr hk

end Layout
