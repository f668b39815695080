-- SUMMARY: Runs of cells in an address space: reading them as a list, cutting the list, and writing a list back.
import Mathlib.Tactic.Common

/-!
# Cells

A memory maps addresses to contents. An array of `n` cells of `size` addresses each
is read as a list. Parts of the list are arrays of their own, and a list that is
written to consecutive addresses can be read back.
-/

namespace Cells

variable {β : Type}

/-- The contents of `n` cells of `size` addresses each, from the address `p` on. -/
def read (mem : Int → β) (size : Nat) (p : Int) (n : Nat) : List β :=
  (List.range n).map fun i : Nat => mem (p + size * i)

@[simp] theorem length_read (mem : Int → β) (size : Nat) (p : Int) (n : Nat) :
    (read mem size p n).length = n := by
  simp [read]

@[simp] theorem read_zero (mem : Int → β) (size : Nat) (p : Int) : read mem size p 0 = [] := rfl

/-- An array is a first part and what follows it. -/
theorem read_append (mem : Int → β) (size : Nat) (p : Int) (m n : Nat) :
    read mem size p m ++ read mem size (p + size * m) n = read mem size p (m + n) := by
  simp only [read, List.range_add, List.map_append, List.map_map]
  congr 2
  funext i
  simp only [Function.comp_apply, Int.natCast_add, Int.mul_add, Int.add_assoc]

/-- A part of an array is the array that starts there. -/
theorem take_drop_read (mem : Int → β) (size : Nat) (p : Int) {k n len : Nat} (h : k + n ≤ len) :
    ((read mem size p len).drop k).take n = read mem size (p + size * k) n := by
  obtain ⟨rest, rfl⟩ := Nat.exists_eq_add_of_le h
  rw [Nat.add_assoc, ← read_append, ← read_append]
  rw [List.drop_left' (length_read ..), List.take_left' (length_read ..)]

/-- A part of an array lies between its ends. -/
theorem part_bounds (p : Int) (size : Nat) {k n len : Nat} (h : k + n ≤ len) :
    p ≤ p + size * k ∧ p + size * k + size * n ≤ p + size * len := by
  obtain ⟨rest, rfl⟩ := Nat.exists_eq_add_of_le h
  have hk : 0 ≤ (size : Int) * k := Int.mul_nonneg (by omega) (by omega)
  have hrest : 0 ≤ (size : Int) * rest := Int.mul_nonneg (by omega) (by omega)
  simp only [Int.natCast_add, Int.mul_add]
  omega

/-- The bytes `bs` written from the address `p` on. -/
def write (mem : Int → β) (p : Int) (bs : List β) : Int → β := fun q =>
  if p ≤ q then (bs[(q - p).toNat]?).getD (mem q) else mem q

theorem write_add (mem : Int → β) (p : Int) (bs : List β) {i : Nat} (hi : i < bs.length) :
    write mem p bs (p + i) = bs[i] := by
  have hpos : p ≤ p + i := by omega
  have hindex : (p + i - p).toNat = i := by omega
  simp only [write, if_pos hpos, hindex, List.getElem?_eq_getElem hi, Option.getD_some]

/-- Outside of what was written the memory is as it was. -/
theorem write_outside (mem : Int → β) (p : Int) (bs : List β) {q : Int}
    (hq : ¬ (p ≤ q ∧ q < p + bs.length)) : write mem p bs q = mem q := by
  unfold write
  split
  · have hlen : bs.length ≤ (q - p).toNat := by omega
    rw [List.getElem?_eq_none hlen, Option.getD_none]
  · rfl

/-- What was written is read back, or the first part of it. -/
theorem read_write (mem : Int → β) (p : Int) (bs : List β) {n : Nat} (hn : n ≤ bs.length) :
    read (write mem p bs) 1 p n = bs.take n := by
  apply List.ext_getElem
  · simp [hn]
  · intro i hi hi'
    have hlt : i < bs.length := by
      simp only [length_read] at hi
      omega
    simp only [read, List.getElem_map, List.getElem_range, List.getElem_take]
    rw [← write_add mem p bs hlt]
    simp

end Cells
