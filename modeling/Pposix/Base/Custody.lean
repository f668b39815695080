-- SUMMARY: Which object holds which token: exclusive holdings and the updates that keep them exclusive.
import Mathlib.Logic.Equiv.Basic
import Mathlib.Logic.Function.Basic

/-!
# Custody

Objects hold handles, and a handle may come with a token. Holdings are exclusive
when no token is with two objects. Exchanging the contents of objects is composing
with a permutation, so every kind of move keeps exclusivity for the same reason.
-/

variable {ι τ D : Type}

/-- What an updated function takes its value from. -/
theorem update_cases [DecidableEq ι] {f : ι → τ} {o a : ι} {x y : τ}
    (h : Function.update f o x a = y) : (a = o ∧ x = y) ∨ (a ≠ o ∧ f a = y) := by
  rw [Function.update_apply] at h
  split at h
  · exact .inl ⟨‹_›, h⟩
  · exact .inr ⟨‹_›, h⟩

/-- What each object holds: nothing when it is not live, else a handle, and with
it a token unless the handle is null. `good t d` is what is known of a held token
and its handle. -/
structure Held (null : D) (good : τ → D → Prop) (p : ι → Option (D × Option τ)) : Prop where
  exclusive : ∀ {a b d d' t}, p a = some (d, some t) → p b = some (d', some t) → a = b
  none_iff : ∀ {o d t}, p o = some (d, t) → (t = none ↔ d = null)
  good : ∀ {o d t}, p o = some (d, some t) → good t d

namespace Held

variable {null : D} {good good' : τ → D → Prop} {p : ι → Option (D × Option τ)}

theorem init : Held null good (fun _ : ι => (none : Option (D × Option τ))) where
  exclusive := by intro a b d d' t h; cases h
  none_iff := by intro o d t h; cases h
  good := by intro o d t h; cases h

theorem mono (h : Held null good p)
    (hg : ∀ {o d t}, p o = some (d, some t) → good t d → good' t d) : Held null good' p where
  exclusive := h.exclusive
  none_iff := h.none_iff
  good := fun ho => hg ho (h.good ho)

/-- Permuting the objects. -/
theorem comp_perm (h : Held null good p) (e : Equiv.Perm ι) : Held null good (p ∘ e) where
  exclusive := fun ha hb => e.injective (h.exclusive ha hb)
  none_iff := fun ho => h.none_iff ho
  good := fun ho => h.good ho

variable [DecidableEq ι]

/-- One object now holds `x`. The token, if it has one, is nobody else's. -/
theorem update (h : Held null good p) {o : ι} {x : Option (D × Option τ)}
    (hnone : ∀ {d t}, x = some (d, t) → (t = none ↔ d = null))
    (hgood : ∀ {d t}, x = some (d, some t) → good t d)
    (hfresh : ∀ {a d d' t}, x = some (d, some t) → p a = some (d', some t) → a = o) :
    Held null good (Function.update p o x) where
  exclusive := by
    intro a b d d' t ha hb
    rcases update_cases ha with ⟨hao, ha⟩ | ⟨-, ha⟩
    · rcases update_cases hb with ⟨hbo, -⟩ | ⟨-, hb⟩
      · exact hao.trans hbo.symm
      · exact hao.trans (hfresh ha hb).symm
    · rcases update_cases hb with ⟨hbo, hb⟩ | ⟨-, hb⟩
      · exact (hfresh hb ha).trans hbo.symm
      · exact h.exclusive ha hb
  none_iff := by
    intro a d t ha
    rcases update_cases ha with ⟨-, ha⟩ | ⟨-, ha⟩
    · exact hnone ha
    · exact h.none_iff ha
  good := by
    intro a d t ha
    rcases update_cases ha with ⟨-, ha⟩ | ⟨-, ha⟩
    · exact hgood ha
    · exact h.good ha

/-- One object is gone. -/
theorem update_none (h : Held null good p) (o : ι) : Held null good (Function.update p o none) :=
  h.update (by simp) (by simp) (by simp)

/-- One object now holds the null handle. -/
theorem update_null (h : Held null good p) (o : ι) :
    Held null good (Function.update p o (some (null, none))) :=
  h.update (by simp +contextual [eq_comm]) (by simp) (by simp)

end Held

/-- Writing each of two objects' contents to the other is permuting the objects.
It holds for one object exchanged with itself as well. -/
theorem update_update_eq_comp_swap [DecidableEq ι] (f : ι → τ) (a b : ι) :
    Function.update (Function.update f a (f b)) b (f a) = f ∘ Equiv.swap a b := by
  funext o
  by_cases hb : o = b
  · simp [hb]
  · by_cases ha : o = a
    · subst ha
      simp [hb]
    · simp [hb, ha, Equiv.swap_apply_of_ne_of_ne ha hb]
