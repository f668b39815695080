-- SUMMARY: What one step of the owner machine can do to the holdings, the kernel and the log.
import Pposix.Owners.Machine

/-!
# Effects

`Effect` lists once what each action can do, guards included. The invariants of the
machine are derived from it and never unfold `step`.
-/

namespace Owners

variable {ι κ C R E Γ W D M : Type}

/-- What each object holds: its handle and its token. -/
def State.view (X : Class C R Γ W D M) (s : State ι κ C R Γ W D) : ι → Option (D × Option Nat) :=
  (Option.map fun w => (X.raw w.obj, w.token)) ∘ s.objs

theorem State.view_apply (X : Class C R Γ W D M) (s : State ι κ C R Γ W D) (o : ι) :
    s.view X o = (s.objs o).map fun w => (X.raw w.obj, w.token) := rfl

/-- What a method on the handle `d` can do to the kernel and the log. The flag
says that a call ended the resource. -/
inductive Used (X : Class C R Γ W D M) (K : Kernel κ C R D E) (t : Option Nat) (d : D) (r : R)
    (k : κ) (log : List (Entry κ C R D)) : κ → List (Entry κ C R D) → Bool → Prop where
  | idle : Used X K t d r k log k log false
  | call {c : C} {k' : κ} : X.touches c = some d → K.answer k c r = some k' →
      Used X K t d r k log k' (log ++ [.called ⟨t, d, k, c, r⟩]) (K.ends c r)

/-- A class is tidy when a method gives the handle up exactly when a call of it
ended the resource. -/
def Class.Tidy (X : Class C R Γ W D M) (K : Kernel κ C R D E) : Prop :=
  ∀ m w g, (X.method m w g).Paths fun h x =>
    (X.raw x.1 = X.null ↔ X.raw w = X.null ∨ ∃ p ∈ h, K.ends p.1 p.2 = true)

/-- The destructor of a diligent class makes its call. -/
def Class.Diligent (X : Class C R Γ W D M) : Prop :=
  ∀ w g, (X.destroy w g).Paths fun h _ => h ≠ []

variable [DecidableEq ι] [DecidableEq D]

/-- What an action can do to the holdings `p`, the kernel `k` and the log. -/
inductive Effect (X : Class C R Γ W D M) (K : Kernel κ C R D E) (p : ι → Option (D × Option Nat))
    (k : κ) (log : List (Entry κ C R D)) :
    Action ι R D M E → (ι → Option (D × Option Nat)) → κ → List (Entry κ C R D) → Prop where
  | default {o} : p o = none →
      Effect X K p k log (.default o) (Function.update p o (some (X.null, none))) k log
  | adopt {o d k'} : p o = none → K.issue k d = some k' →
      Effect X K p k log (.adopt o d) (Function.update p o (some (d, some (K.fresh k)))) k'
        (log ++ [.adopted (K.fresh k) d])
  | moveConstruct {o src} : p o = none → (p src).isSome →
      Effect X K p k log (.moveConstruct o src)
        (Function.update p o (some (X.null, none)) ∘ Equiv.swap o src) k log
  | assign {a b} : (p a).isSome → (p b).isSome →
      Effect X K p k log (.assign a b) (p ∘ Equiv.swap a b) k log
  | method {o m r d d' t k' log' b} : p o = some (d, t) → Used X K t d r k log k' log' b →
      (d' = d ∨ d' = X.null) → (X.Tidy K → (d' = X.null ↔ d = X.null ∨ b = true)) →
      Effect X K p k log (.method o m r)
        (Function.update p o (some (d', if d' = X.null then none else t))) k' log'
  | release {o d t} : p o = some (d, t) →
      Effect X K p k log (.release o) (Function.update p o (some (X.null, none)))
        (t.elim k (K.release k)) (log ++ [.released t d])
  | destroy {o r d t k' log' b} : p o = some (d, t) → Used X K t d r k log k' log' b →
      (X.Diligent → log' ≠ log) →
      Effect X K p k log (.destroy o r) (Function.update p o none) k' (K.bury t log')
  | other {e k'} : K.other k e = some k' → Effect X K p k log (.other e) p k' log

variable {X : Class C R Γ W D M} {K : Kernel κ C R D E}

omit [DecidableEq ι] [DecidableEq D] in
/-- The calls a method made, read off its path. -/
theorem used_of_answered {t : Option Nat} {d : D} {r : R} {k : κ} {log : List (Entry κ C R D)}
    {h : List (C × R)} {σ : Session κ C R D} (hon : OnlyOn X.touches d h)
    (hans : Prog.Answered (K.env t d r) ⟨k, log⟩ h σ) :
    ∃ b, Used X K t d r k log σ.kernel σ.log b ∧ (b = true ↔ ∃ p ∈ h, K.ends p.1 p.2 = true) ∧
      (h ≠ [] → σ.log ≠ log) := by
  obtain ⟨hlen, htouch⟩ := hon
  match h, hlen with
  | [], _ =>
    cases hans
    exact ⟨false, .idle, by simp⟩
  | [(c, r')], _ =>
    obtain ⟨σ₁, henv, rfl⟩ := hans
    obtain ⟨k', hk', heq⟩ := Option.map_eq_some_iff.mp henv
    cases heq
    exact ⟨_, .call (htouch (c, r) (by simp)) hk', by simp⟩

omit [DecidableEq D] in
private theorem view_update (objs : ι → Option (Slot W)) (o : ι) (x : Option (Slot W)) (g : Γ)
    (k : κ) (log : List (Entry κ C R D)) :
    State.view X ⟨Function.update objs o x, g, k, log⟩
      = Function.update (State.view X ⟨objs, g, k, log⟩) o
          (x.map fun w => (X.raw w.obj, w.token)) :=
  Function.comp_update ..

/-- Every enabled step has one of the listed effects. -/
theorem step_effect {s s' : State ι κ C R Γ W D} {a : Action ι R D M E}
    (h : step X K s a = some s') :
    Effect X K (s.view X) s.kernel s.log a (s'.view X) s'.kernel s'.log := by
  cases a with
  | default o =>
    simp only [step] at h
    split at h
    · rename_i ho
      cases h
      rw [view_update, Option.map_some, X.raw_empty]
      exact .default (by simp [State.view, ho])
    · cases h
  | adopt o d =>
    simp only [step] at h
    split at h
    · rename_i ho
      obtain ⟨k', hk', rfl⟩ := Option.map_eq_some_iff.mp h
      rw [view_update, Option.map_some, X.raw_adopt]
      exact .adopt (by simp [State.view, ho]) hk'
    · cases h
  | moveConstruct o src =>
    simp only [step] at h
    split at h
    · rename_i w ho hsrc
      cases h
      have hne : src ≠ o := by
        rintro rfl
        rw [ho] at hsrc
        cases hsrc
      obtain ⟨hnew, hold⟩ := X.raw_moveConstruct w.obj
      have hv : Function.update (Function.update (s.view X) o (some (X.raw w.obj, w.token))) src
            (some (X.null, none))
          = Function.update (s.view X) o (some (X.null, none)) ∘ Equiv.swap o src := by
        rw [← update_update_eq_comp_swap]
        simp [State.view, hne, hsrc]
      rw [view_update, view_update, Option.map_some, Option.map_some, hnew, hold, hv]
      exact .moveConstruct (by simp [State.view, ho]) (by simp [State.view, hsrc])
    · cases h
  | assign a b =>
    simp only [step] at h
    split at h
    · rename_i v w ha hb
      cases h
      obtain ⟨hthis, hother⟩ := X.raw_assign v.obj w.obj
      have hv : Function.update (Function.update (s.view X) a (some (X.raw w.obj, w.token))) b
            (some (X.raw v.obj, v.token))
          = s.view X ∘ Equiv.swap a b := by
        rw [← update_update_eq_comp_swap]
        simp [State.view, ha, hb]
      rw [view_update, view_update, Option.map_some, Option.map_some, hthis, hother, hv]
      exact .assign (by simp [State.view, ha]) (by simp [State.view, hb])
    · cases h
  | method o m r =>
    simp only [step] at h
    split at h
    · cases h
    · rename_i w ho
      obtain ⟨⟨⟨obj', g'⟩, σ⟩, hexec, rfl⟩ := Option.map_eq_some_iff.mp h
      have hpath := X.method_paths m w.obj s.globals
      have hends := Prog.Paths.imp fun htidy : X.Tidy K => htidy m w.obj s.globals
      obtain ⟨p, ⟨⟨hon, hraw⟩, hend⟩, hans⟩ := Prog.exec_path (hpath.and hends) hexec
      obtain ⟨b, hused, hb, -⟩ := used_of_answered hon hans
      rw [view_update]
      apply Effect.method (by simp [State.view, ho]) hused hraw
      intro htidy
      exact (hend htidy).trans (or_congr_right hb.symm)
  | release o =>
    simp only [step] at h
    split at h
    · rename_i f w hf ho
      cases h
      obtain ⟨hd, hnull⟩ := X.raw_release f hf w.obj
      rw [view_update, Option.map_some, hnull, hd]
      exact .release (by simp [State.view, ho])
    · cases h
  | destroy o r =>
    simp only [step] at h
    split at h
    · cases h
    · rename_i w ho
      obtain ⟨⟨⟨u, g'⟩, σ⟩, hexec, rfl⟩ := Option.map_eq_some_iff.mp h
      have hpath := X.destroy_paths w.obj s.globals
      have hcalls := Prog.Paths.imp fun hdil : X.Diligent => hdil w.obj s.globals
      obtain ⟨p, ⟨hon, hne⟩, hans⟩ := Prog.exec_path (hpath.and hcalls) hexec
      obtain ⟨b, hused, -, hlog⟩ := used_of_answered hon hans
      rw [view_update]
      apply Effect.destroy (by simp [State.view, ho]) hused
      intro hdil
      exact hlog (hne hdil)
  | other e =>
    simp only [step] at h
    obtain ⟨k', hk', rfl⟩ := Option.map_eq_some_iff.mp h
    exact .other hk'

end Owners
