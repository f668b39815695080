-- SUMMARY: Programs that compute by calling an environment, and their execution against an environment with state.
import Mathlib.Tactic.Common

/-!
# Programs that call an environment

A program is a tree: it is done with a result, or it makes a call and goes on
with the answer. It says nothing about who answers. An environment is a partial
transition function, so the same program can be executed against a kernel model,
a recorder of the calls, or a fixed list of answers.
-/

/-- A program with calls `C`, answers `R` and results `α`. -/
inductive Prog (C R α : Type) where
  | done (result : α)
  | call (c : C) (k : R → Prog C R α)

namespace Prog

variable {C R σ α β γ : Type}

/-- Go on with `f` at the result. -/
def bind : Prog C R α → (α → Prog C R β) → Prog C R β
  | .done a, f => f a
  | .call c k, f => .call c fun r => (k r).bind f

instance : Monad (Prog C R) where
  pure := .done
  bind := bind

/-! ## Execution -/

/-- An environment answers a call from a state and moves on; `none` when it has
no answer to give. -/
abbrev Env (σ C R : Type) := σ → C → Option (R × σ)

/-- Execute against an environment. -/
def exec (env : Env σ C R) : Prog C R α → σ → Option (α × σ)
  | .done a, s => some (a, s)
  | .call c k, s => (env s c).bind fun x => (k x.1).exec env x.2

/-- A program that goes on executes from where the first part ended. -/
theorem exec_bind (env : Env σ C R) (p : Prog C R α) (f : α → Prog C R β) (s : σ) :
    (p.bind f).exec env s = (p.exec env s).bind fun x => (f x.1).exec env x.2 := by
  induction p generalizing s with
  | done a => rfl
  | call c k ih =>
    simp only [Prog.bind, exec, Option.bind_assoc]
    congr 1
    funext x
    exact ih x.1 x.2

/-! ## Paths -/

/-- `Q` holds of the answered calls and the result of every path through the
program, whatever the answers are. -/
def Paths (Q : List (C × R) → α → Prop) : Prog C R α → Prop
  | .done a => Q [] a
  | .call c k => ∀ r, (k r).Paths fun h => Q ((c, r) :: h)

@[simp] theorem paths_done (Q : List (C × R) → α → Prop) (a : α) :
    (.done a : Prog C R α).Paths Q ↔ Q [] a := Iff.rfl

/-- The environment gives these answers to these calls, in this order. -/
def Answered (env : Env σ C R) : σ → List (C × R) → σ → Prop
  | s, [], s' => s = s'
  | s, (c, r) :: h, s' => ∃ s₁, env s c = some (r, s₁) ∧ Answered env s₁ h s'

/-- Every execution follows one of the program's paths. -/
theorem exec_path {env : Env σ C R} {p : Prog C R α} {Q : List (C × R) → α → Prop}
    {s s' : σ} {a : α} (hp : p.Paths Q) (h : p.exec env s = some (a, s')) :
    ∃ t, Q t a ∧ Answered env s t s' := by
  induction p generalizing s Q with
  | done b =>
    cases h
    exact ⟨[], hp, rfl⟩
  | call c k ih =>
    obtain ⟨⟨r, s₁⟩, h₁, h₂⟩ := Option.bind_eq_some_iff.mp h
    obtain ⟨t, hQ, ht⟩ := ih r (hp r) h₂
    exact ⟨(c, r) :: t, hQ, s₁, h₁, ht⟩

theorem Paths.and {P Q : List (C × R) → α → Prop} {p : Prog C R α} (hP : p.Paths P)
    (hQ : p.Paths Q) : p.Paths fun h a => P h a ∧ Q h a := by
  induction p generalizing P Q with
  | done a => exact ⟨hP, hQ⟩
  | call c k ih => exact fun r => ih r (hP r) (hQ r)

/-- A condition that does not depend on the path. -/
theorem Paths.imp {A : Prop} {Q : List (C × R) → α → Prop} {p : Prog C R α}
    (h : A → p.Paths Q) : p.Paths fun t a => A → Q t a := by
  induction p generalizing Q with
  | done a => exact h
  | call c k ih => exact fun r => ih r fun ha => h ha r

theorem Paths.mono {P Q : List (C × R) → α → Prop} (hPQ : ∀ h a, P h a → Q h a)
    {p : Prog C R α} (hp : p.Paths P) : p.Paths Q := by
  induction p generalizing P Q with
  | done a => exact hPQ _ _ hp
  | call c k ih => exact fun r => ih r (fun h a => hPQ _ a) (hp r)

theorem Paths.bind {P : List (C × R) → α → Prop} {Q : List (C × R) → β → Prop}
    {p : Prog C R α} {f : α → Prog C R β} (hp : p.Paths P)
    (hf : ∀ h a, P h a → (f a).Paths fun h' => Q (h ++ h')) : (p.bind f).Paths Q := by
  induction p generalizing P Q with
  | done a => exact hf [] a hp
  | call c k ih => exact fun r => ih r (hp r) fun h a => hf ((c, r) :: h) a

end Prog
