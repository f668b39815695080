-- SUMMARY: Times that are written as two counts, of seconds and of a unit below the second.
import Mathlib.Tactic.Common

/-!
# Clocks

A time has many readings as a count of seconds and a count of smaller units. One of them
is normal: its smaller units are not negative and make less than a second.
-/

/-- A reading of a time; `unit` of the smaller units make a second. -/
structure Clock (unit : Nat) where
  sec : Int
  frac : Int
  deriving DecidableEq, Repr

namespace Clock

variable {unit : Nat} {t t' : Clock unit} {n : Int}

/-- The time in smaller units. -/
def total (t : Clock unit) : Int := t.sec * unit + t.frac

def Normal (t : Clock unit) : Prop := 0 ≤ t.frac ∧ t.frac < unit

instance (t : Clock unit) : Decidable t.Normal := inferInstanceAs (Decidable (_ ∧ _))

/-- The reading is normal, and the time is `n` smaller units. -/
def Denotes (t : Clock unit) (n : Int) : Prop := t.Normal ∧ t.total = n

instance (t : Clock unit) (n : Int) : Decidable (t.Denotes n) :=
  inferInstanceAs (Decidable (_ ∧ _))

/-- Whole seconds are normal. -/
theorem denotes_whole (h : 0 < unit) (s : Int) : (⟨s, 0⟩ : Clock unit).Denotes (s * unit) :=
  ⟨⟨Int.le_refl 0, Int.natCast_pos.mpr h⟩, Int.add_zero _⟩

/-- Division with remainder is the normal reading. -/
theorem denotes_iff (h : 0 < unit) : t.Denotes n ↔ t = ⟨n / unit, n % unit⟩ := by
  have hunique := Int.ediv_emod_unique (a := n) (r := t.frac) (q := t.sec) (Int.natCast_pos.mpr h)
  have heq : t = ⟨n / unit, n % unit⟩ ↔ n / unit = t.sec ∧ n % unit = t.frac := by
    rw [Clock.mk.injEq, eq_comm, eq_comm (a := t.frac)]
  rw [heq, hunique, Denotes, Normal, total, and_comm, Int.add_comm, Int.mul_comm]

/-- A normal reading is determined by its time. -/
theorem Normal.denotes_total_iff (h : t.Normal) : t'.Denotes t.total ↔ t' = t := by
  have hunit : 0 < unit := Int.natCast_pos.mp (Int.lt_of_le_of_lt h.1 h.2)
  have ht : t = ⟨t.total / unit, t.total % unit⟩ := (denotes_iff hunit).mp ⟨h, rfl⟩
  rw [denotes_iff hunit, ← ht]

end Clock
