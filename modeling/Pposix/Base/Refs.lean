-- SUMMARY: Keys that refer to numbered objects, and the object that goes when a key is dropped.
import Mathlib.Data.List.AList
import Mathlib.Logic.Function.Basic

/-!
# References

A key refers to at most one object, and several keys may refer to the same one. An object
goes when the last key that refers to it is dropped.
-/

abbrev Refs (κ : Type) := AList fun _ : κ => Nat

namespace Refs

variable {κ : Type} [DecidableEq κ] {r : Refs κ} {k : κ} {t : Nat}

/-- The object that a key refers to. -/
def find (r : Refs κ) (k : κ) : Option Nat := r.lookup k

theorem find_insert (r : Refs κ) (k : κ) (t : Nat) :
    find (r.insert k t) = Function.update r.find k (some t) := by
  funext k'
  by_cases h : k' = k
  · subst h
    rw [Function.update_self]
    exact AList.lookup_insert r
  · rw [Function.update_of_ne h]
    exact AList.lookup_insert_ne h

theorem find_erase (r : Refs κ) (k : κ) :
    find (r.erase k) = Function.update r.find k none := by
  funext k'
  by_cases h : k' = k
  · subst h
    rw [Function.update_self]
    exact AList.lookup_erase k' r
  · rw [Function.update_of_ne h]
    exact AList.lookup_erase_ne h

omit [DecidableEq κ] in
/-- Some key refers to the object. -/
def holds (r : Refs κ) (t : Nat) : Bool := r.entries.any fun x => x.2 == t

theorem holds_iff : r.holds t = true ↔ ∃ k, r.find k = some t := by
  rw [holds, List.any_eq_true]
  constructor
  · intro ⟨⟨k, t'⟩, hmem, heq⟩
    obtain rfl : t' = t := eq_of_beq heq
    exact ⟨k, AList.mem_lookup_iff.mpr hmem⟩
  · intro ⟨k, hk⟩
    exact ⟨⟨k, t⟩, AList.mem_lookup_iff.mp hk, beq_self_eq_true t⟩

theorem holds_eq_false_iff : r.holds t = false ↔ ∀ k, r.find k ≠ some t := by
  rw [← Bool.not_eq_true, holds_iff]
  exact not_exists

/-- The object that goes with a key. -/
def last (r : Refs κ) (k : κ) : Option Nat :=
  (r.find k).filter fun t => !holds (r.erase k) t

/-- It is the one that no other key refers to. -/
theorem last_eq_some_iff :
    r.last k = some t ↔ r.find k = some t ∧ ∀ k', k' ≠ k → r.find k' ≠ some t := by
  rw [last, Option.filter_eq_some_iff, Bool.not_eq_true', holds_eq_false_iff, find_erase]
  apply and_congr_right
  intro _
  apply forall_congr'
  intro k'
  by_cases h : k' = k
  · subst h
    simp
  · simp [h]

end Refs
