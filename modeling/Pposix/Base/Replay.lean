-- SUMMARY: Logs that replay on an abstract state, the rule that carries a replay along the runs of a machine, and what a log says is in force.
import Mathlib.Data.List.Basic
import Pposix.Base.Machine

/-!
# Replay

A machine keeps a log of what its users saw. The log replays on an abstract state when
its entries, in order, are steps of a specification from the first state to the last
one. A step of the machine that adds no entry changes nothing that is abstract.
-/

variable {α ε σ ι : Type} {spec : α → ε → α → Prop}

/-- The entries of the log take the abstract state `a` to another one. -/
inductive Replays (spec : α → ε → α → Prop) (a : α) : List ε → α → Prop where
  | nil : Replays spec a [] a
  | snoc {log : List ε} {b c : α} {e : ε} :
      Replays spec a log b → spec b e c → Replays spec a (log ++ [e]) c

namespace Replays

variable {a b : α} {log : List ε} {e : ε}

/-- Every entry was allowed in the state that the entries before it made. -/
theorem entry (h : Replays spec a log b) {i : Nat} (hi : log[i]? = some e) :
    ∃ c d, Replays spec a (log.take i) c ∧ spec c e d := by
  induction h with
  | nil => cases hi
  | @snoc log b c e' hlog hspec ih =>
    rcases Nat.lt_or_ge i log.length with hlt | hge
    · rw [List.getElem?_append_left hlt] at hi
      rw [List.take_append_of_le_length (Nat.le_of_lt hlt)]
      exact ih hi
    · rw [List.getElem?_append_right hge, List.getElem?_singleton] at hi
      split at hi
      · have hlast : i = log.length := by omega
        cases hi
        rw [hlast, List.take_left]
        exact ⟨b, c, hlog, hspec⟩
      · cases hi

/-- What is true of the start and kept by every entry, given what is true of the entries. -/
theorem keep {P : α → Prop} {Q : ε → Prop} (h : Replays spec a log b) (ha : P a)
    (hstep : ∀ {b e c}, P b → Q e → spec b e c → P c) (hlog : ∀ e ∈ log, Q e) : P b := by
  induction h with
  | nil => exact ha
  | snoc _ hspec ih =>
    have hold : P _ := ih fun e he => hlog e (List.mem_append_left _ he)
    exact hstep hold (hlog _ (List.mem_append_right _ (List.mem_singleton_self _))) hspec

/-! ## Machines -/

variable {step : σ → ι → Option σ} {I : σ → Prop} {abs : σ → α} {history : σ → List ε}

/-- A step that leaves the log and the abstract state as they are, or adds one entry
that the specification allows. -/
def Logs (spec : α → ε → α → Prop) (abs : σ → α) (history : σ → List ε) (s s' : σ) : Prop :=
  (history s' = history s ∧ abs s' = abs s) ∨
    ∃ e, history s' = history s ++ [e] ∧ spec (abs s) e (abs s')

/-- If every step logs, the log of every run replays. -/
theorem always (hstep : ∀ {s a s'}, I s → step s a = some s' →
      I s' ∧ Logs spec abs history s s')
    {s : σ} (hs : I s) (hempty : history s = []) (as : List ι) :
    Machine.Always step (fun s' => Replays spec (abs s) (history s') (abs s')) s as := by
  refine Machine.Guarded.always (G := fun _ _ => True)
    (I := fun s' => I s' ∧ Replays spec (abs s) (history s') (abs s')) And.right ?_
    (Machine.Guarded.of_forall (fun _ _ => trivial) as s) ⟨hs, ?_⟩
  · rintro s₁ i s₂ ⟨hI, hreplay⟩ - h
    obtain ⟨hI', ⟨hlog, habs⟩ | ⟨e, hlog, hspec⟩⟩ := hstep hI h
    · refine ⟨hI', ?_⟩
      rw [hlog, habs]
      exact hreplay
    · refine ⟨hI', ?_⟩
      rw [hlog]
      exact hreplay.snoc hspec
  · rw [hempty]
    exact .nil

end Replays

/-! ## What is in force -/

/-- An entry of the kind `P` is in the log, and no entry after it is one of `Ends`. -/
def InForce (P Ends : ε → Prop) (log : List ε) : Prop :=
  ∃ before e after, log = before ++ e :: after ∧ P e ∧ ∀ x ∈ after, ¬ Ends x

namespace InForce

variable {P Ends : ε → Prop} {log : List ε} {e : ε}

theorem not_nil : ¬ InForce P Ends [] := by
  intro ⟨before, e, after, hlog, _⟩
  exact List.append_ne_nil_of_right_ne_nil before (List.cons_ne_nil _ _) hlog.symm

theorem exists_mem (h : InForce P Ends log) : ∃ e ∈ log, P e := by
  obtain ⟨before, e, after, rfl, he, -⟩ := h
  exact ⟨e, List.mem_append_right _ List.mem_cons_self, he⟩

theorem new (log : List ε) (he : P e) : InForce P Ends (log ++ [e]) :=
  ⟨log, e, [], rfl, he, by simp⟩

theorem append (h : InForce P Ends log) (he : ¬ Ends e) : InForce P Ends (log ++ [e]) := by
  obtain ⟨before, x, after, rfl, hx, hafter⟩ := h
  refine ⟨before, x, after ++ [e], by simp, hx, ?_⟩
  intro y hy
  cases List.mem_append.mp hy with
  | inl hold => exact hafter y hold
  | inr hnew => exact List.mem_singleton.mp hnew ▸ he

theorem of_append (h : InForce P Ends (log ++ [e])) : P e ∨ (InForce P Ends log ∧ ¬ Ends e) := by
  obtain ⟨before, x, after, hlog, hx, hafter⟩ := h
  cases List.eq_nil_or_concat' after with
  | inl hnil =>
    subst hnil
    have hlast := List.singleton_injective (List.append_inj' hlog rfl).2
    exact .inl (hlast ▸ hx)
  | inr hconcat =>
    obtain ⟨rest, y, rfl⟩ := hconcat
    have hsplit : log ++ [e] = (before ++ x :: rest) ++ [y] := by simpa using hlog
    obtain ⟨rfl, hy⟩ := List.append_inj' hsplit rfl
    have hlast := List.singleton_injective hy
    subst hlast
    refine .inr ⟨⟨before, x, rest, rfl, hx, fun z hz => hafter z ?_⟩, hafter e ?_⟩
    · exact List.mem_append_left _ hz
    · exact List.mem_append_right _ (List.mem_singleton_self e)

/-- What one more entry does to what is in force. -/
theorem append_iff : InForce P Ends (log ++ [e]) ↔ P e ∨ (InForce P Ends log ∧ ¬ Ends e) := by
  constructor
  · exact of_append
  · intro h
    cases h with
    | inl hnew => exact new log hnew
    | inr hold => exact hold.1.append hold.2

end InForce
