-- SUMMARY: Runs of partial step functions, and the rules that carry a property along a run.
import Mathlib.Tactic.Common

/-!
# Machines

A machine is a partial step function `σ → α → Option σ`: `step s a` is the state
after action `a`, or `none` when `a` is not enabled in `s`. A run takes a list of
actions in order. Nondeterminism is in the actions, so a statement about every
list of actions is a statement about every interleaving.
-/

namespace Machine

variable {σ α : Type} {step : σ → α → Option σ}

/-- Take the actions in order; `none` when one of them is not enabled. -/
def run (step : σ → α → Option σ) : σ → List α → Option σ
  | s, [] => some s
  | s, a :: as => (step s a).bind fun s' => run step s' as

/-! ## Guarded runs

Some properties hold only of the runs whose steps all meet a condition on the
state before the step. -/

/-- Every step that is taken is taken from a state where `G` allows it. -/
def Guarded (step : σ → α → Option σ) (G : σ → α → Prop) : σ → List α → Prop
  | _, [] => True
  | s, a :: as => ∀ s', step s a = some s' → G s a ∧ Guarded step G s' as

/-- A guard that can be checked can be checked along a run. -/
def Guarded.decide {G : σ → α → Prop} [∀ s a, Decidable (G s a)] :
    ∀ (s : σ) (as : List α), Decidable (Guarded step G s as)
  | _, [] => isTrue trivial
  | s, a :: as =>
    match h : step s a with
    | none => isTrue (by simp [Guarded, h])
    | some s' =>
      have : Decidable (Guarded step G s' as) := Guarded.decide s' as
      decidable_of_iff (G s a ∧ Guarded step G s' as) (by simp [Guarded, h])

instance {G : σ → α → Prop} [∀ s a, Decidable (G s a)] (s : σ) (as : List α) :
    Decidable (Guarded step G s as) :=
  Guarded.decide s as

/-- `P` holds of every state the run passes through, the first and the last included. -/
def Always (step : σ → α → Option σ) (P : σ → Prop) : σ → List α → Prop
  | s, [] => P s
  | s, a :: as => P s ∧ ∀ s', step s a = some s' → Always step P s' as

theorem Always.head {P : σ → Prop} {s : σ} {as : List α} (h : Always step P s as) : P s := by
  cases as with
  | nil => exact h
  | cons a as => exact h.1

theorem Guarded.of_forall {G : σ → α → Prop} (hG : ∀ s a, G s a) :
    ∀ (as : List α) (s : σ), Guarded step G s as := by
  intro as
  induction as with
  | nil => exact fun _ => trivial
  | cons a as ih => exact fun s s' _ => ⟨hG s a, ih s'⟩

theorem Always.mono {P Q : σ → Prop} (hPQ : ∀ s, P s → Q s) :
    ∀ {as : List α} {s : σ}, Always step P s as → Always step Q s as := by
  intro as
  induction as with
  | nil => exact fun h => hPQ _ h
  | cons a as ih => exact fun h => ⟨hPQ _ h.1, fun s' hs' => ih (h.2 s' hs')⟩

theorem Guarded.always {I P : σ → Prop} {G : σ → α → Prop}
    (hP : ∀ {s}, I s → P s)
    (hstep : ∀ {s a s'}, I s → G s a → step s a = some s' → I s') :
    ∀ {as : List α} {s : σ}, Guarded step G s as → I s → Always step P s as := by
  intro as
  induction as with
  | nil => exact fun _ hs => hP hs
  | cons a as ih =>
    exact fun hG hs => ⟨hP hs, fun s' h => ih (hG s' h).2 (hstep hs (hG s' h).1 h)⟩

/-- Where a step outside the guard breaks `P` at once, the guard is the exact
condition on a run for `P` to hold throughout. -/
theorem always_iff_guarded {I P : σ → Prop} {G : σ → α → Prop}
    (hP : ∀ {s}, I s → P s)
    (hstep : ∀ {s a s'}, I s → G s a → step s a = some s' → I s')
    (hbad : ∀ {s a s'}, I s → step s a = some s' → P s' → G s a) :
    ∀ {as : List α} {s : σ}, I s → (Always step P s as ↔ Guarded step G s as) := by
  intro as s hs
  constructor
  · intro hA
    induction as generalizing s with
    | nil => exact trivial
    | cons a as ih =>
      intro s' h
      have hG : G s a := hbad hs h (hA.2 s' h).head
      exact ⟨hG, ih (hstep hs hG h) (hA.2 s' h)⟩
  · exact fun hG => hG.always hP hstep hs

end Machine
