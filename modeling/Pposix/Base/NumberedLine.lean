-- SUMMARY: Lines of text that start with a number between angle brackets, and how the number is read back.
import Mathlib.Tactic.Common

/-!
# Numbered lines

A line is a list of bytes. It starts with a number in decimal, between `<` and `>`, and
any bytes may follow. No digit is a `>`, so a reader who takes the digits up to the first
`>` finds the number and what follows it.
-/

namespace NumberedLine

/-- The number in decimal. -/
def digits (n : Nat) : List UInt8 := (Nat.toDigits 10 n).map Char.toUInt8

def value (s : List UInt8) : Nat := Nat.ofDigitChars 10 (s.map Char.ofUInt8) 0

def make (n : Nat) (rest : List UInt8) : List UInt8 :=
  '<'.toUInt8 :: digits n ++ '>'.toUInt8 :: rest

/-- The number that a line starts with. -/
def number (line : List UInt8) : Nat := value (line.tail.takeWhile (· != '>'.toUInt8))

/-- What follows the number. -/
def rest (line : List UInt8) : List UInt8 := (line.tail.dropWhile (· != '>'.toUInt8)).tail

/-! ## Digits -/

theorem ofUInt8_toUInt8 {c : Char} (h : c.isDigit = true) : Char.ofUInt8 c.toUInt8 = c := by
  simp only [Char.isDigit, Bool.and_eq_true, decide_eq_true_eq] at h
  have hle : c.val.toNat ≤ 57 := UInt32.le_iff_toNat_le.mp h.2
  apply Char.ext
  apply UInt32.toNat_inj.mp
  change (c.val.toUInt8.toUInt32).toNat = c.val.toNat
  rw [UInt8.toNat_toUInt32, UInt32.toNat_toUInt8]
  exact Nat.mod_eq_of_lt (by omega)

theorem isDigit_of_mem {n : Nat} {c : Char} (h : c ∈ Nat.toDigits 10 n) : c.isDigit = true :=
  Nat.isDigit_of_mem_toDigits (by decide) (by decide) h

theorem value_digits (n : Nat) : value (digits n) = n := by
  have hmap : (Nat.toDigits 10 n).map (Char.ofUInt8 ∘ Char.toUInt8) =
      (Nat.toDigits 10 n).map id :=
    List.map_congr_left fun c hc => ofUInt8_toUInt8 (isDigit_of_mem hc)
  rw [value, digits, List.map_map, hmap, List.map_id]
  exact Nat.ofDigitChars_ten_toDigits

theorem ne_of_mem_digits {n : Nat} {b : UInt8} (h : b ∈ digits n) :
    (b != '>'.toUInt8) = true := by
  obtain ⟨c, hc, rfl⟩ := List.mem_map.mp h
  have hdigit := isDigit_of_mem hc
  apply bne_iff_ne.mpr
  intro heq
  have hchar := congrArg Char.ofUInt8 heq
  rw [ofUInt8_toUInt8 hdigit] at hchar
  subst hchar
  exact absurd hdigit (by decide)

/-! ## Reading -/

/-- A line gives back the number it was made with. -/
theorem number_make (n : Nat) (rest : List UInt8) : number (make n rest) = n := by
  have hdigits : (digits n ++ '>'.toUInt8 :: rest).takeWhile (· != '>'.toUInt8) = digits n := by
    rw [List.takeWhile_append_of_pos fun b hb => ne_of_mem_digits hb]
    simp
  rw [number, make, List.cons_append, List.tail_cons, hdigits, value_digits]

theorem rest_make (n : Nat) (r : List UInt8) : rest (make n r) = r := by
  rw [rest, make, List.cons_append, List.tail_cons,
    List.dropWhile_append_of_pos fun b hb => ne_of_mem_digits hb]
  simp

end NumberedLine
