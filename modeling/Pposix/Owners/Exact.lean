-- SUMMARY: Classes whose methods make one call each: what a step adds to the log, and when the guard of safety is exact.
import Pposix.Owners.Safety

/-!
# Single-call classes

Every method and the destructor of a single-call class make one call on the stored
handle. Then the log shows every action on an object, and an object that acts on a
resource it has lost shows at once.
-/

namespace Owners

variable {ι κ C R E Γ W D M : Type}

/-- `callOf (some m)` is the call of the method `m`, and `callOf none` the call of the
destructor. -/
structure Class.SingleCall (X : Class C R Γ W D M) (callOf : Option M → D → C) : Prop where
  method : ∀ m w g, ∃ f : R → W × Γ,
    X.method m w g = .call (callOf (some m) (X.raw w)) fun r => .done (f r)
  destroy : ∀ w g, ∃ f : R → PUnit × Γ,
    X.destroy w g = .call (callOf none (X.raw w)) fun r => .done (f r)

variable {X : Class C R Γ W D M} {K : Kernel κ C R D E} {callOf : Option M → D → C}
  {owns : κ → Nat → D → Prop} {gone : κ → Nat → Prop} {s s' : State ι κ C R Γ W D}

theorem Class.SingleCall.diligent (h : X.SingleCall callOf) : X.Diligent := by
  intro w g
  obtain ⟨f, hf⟩ := h.destroy w g
  rw [hf]
  exact fun r => List.cons_ne_nil _ _

/-- The calls that an action adds to the log. -/
def actionCalls (X : Class C R Γ W D M) (callOf : Option M → D → C) (s : State ι κ C R Γ W D) :
    Action ι R D M E → List (Call κ C R D)
  | .method o m r => (s.objs o).toList.map fun w =>
      ⟨w.token, X.raw w.obj, s.kernel, callOf (some m) (X.raw w.obj), r⟩
  | .destroy o r => (s.objs o).toList.map fun w =>
      ⟨w.token, X.raw w.obj, s.kernel, callOf none (X.raw w.obj), r⟩
  | _ => []

/-- What one call on behalf of an object writes to the log. -/
theorem exec_call_log {t : Option Nat} {d : D} {r : R} {c : C} {α : Type} {f : R → α} {k : κ}
    {log : List (Entry κ C R D)} {x : α × Session κ C R D}
    (h : Prog.exec (K.env t d r) (.call c fun r => .done (f r)) ⟨k, log⟩ = some x) :
    x.2.log = log ++ [.called ⟨t, d, k, c, r⟩] := by
  obtain ⟨y, hy, hyx⟩ := Option.bind_eq_some_iff.mp h
  obtain ⟨k', -, rfl⟩ := Option.map_eq_some_iff.mp hy
  cases hyx
  rfl

variable [DecidableEq ι] [DecidableEq D]

theorem Class.SingleCall.step_calls (hX : X.SingleCall callOf) {a : Action ι R D M E}
    (h : Owners.step X K s a = some s') :
    calls s'.log = calls s.log ++ actionCalls X callOf s a := by
  cases a with
  | default o =>
    simp only [step] at h
    split at h <;> cases h
    simp [actionCalls]
  | adopt o d =>
    simp only [step] at h
    split at h
    · obtain ⟨k', -, rfl⟩ := Option.map_eq_some_iff.mp h
      simp [actionCalls]
    · cases h
  | moveConstruct o src =>
    simp only [step] at h
    split at h <;> cases h
    simp [actionCalls]
  | assign a b =>
    simp only [step] at h
    split at h <;> cases h
    simp [actionCalls]
  | method o m r =>
    simp only [step] at h
    split at h
    · cases h
    · rename_i w ho
      obtain ⟨x, hx, rfl⟩ := Option.map_eq_some_iff.mp h
      obtain ⟨f, hf⟩ := hX.method m w.obj s.globals
      rw [hf] at hx
      simp [exec_call_log hx, actionCalls, ho]
  | release o =>
    simp only [step] at h
    split at h <;> cases h
    simp [actionCalls]
  | destroy o r =>
    simp only [step] at h
    split at h
    · cases h
    · rename_i w ho
      obtain ⟨x, hx, rfl⟩ := Option.map_eq_some_iff.mp h
      obtain ⟨f, hf⟩ := hX.destroy w.obj s.globals
      rw [hf] at hx
      simp [exec_call_log hx, actionCalls, ho]
  | other e =>
    simp only [step] at h
    obtain ⟨k', -, rfl⟩ := Option.map_eq_some_iff.mp h
    simp [actionCalls]

/-! ## The guard of safety -/

/-- Each resource is ended at most once, its owner makes no call after that, and every
call is rightful. -/
def Respectful (X : Class C R Γ W D M) (K : Kernel κ C R D E) (owns : κ → Nat → D → Prop)
    (log : List (Entry κ C R D)) : Prop :=
  (∀ t, ((calls log).filter fun e => K.Ends e ∧ e.token = some t).length ≤ 1) ∧
    ((calls log).Pairwise fun e e' => K.Ends e → ∀ t, e.token = some t → e'.token ≠ some t) ∧
    ∀ e ∈ calls log, Rightful X owns e

omit [DecidableEq ι] [DecidableEq D] in
/-- An object that acts after its resource was ended breaks the order in the log. -/
theorem careful_of_final {a : Action ι R D M E} (hgone : ∀ k t, ¬ gone k t)
    (h : (calls s.log ++ actionCalls X callOf s a).Pairwise
      fun e e' => K.Ends e → ∀ t, e.token = some t → e'.token ≠ some t) :
    Careful K gone s a := by
  obtain ⟨-, -, hcross⟩ := List.pairwise_append.mp h
  cases a with
  | method o m r =>
    intro w hw t ht
    refine ⟨fun e he het hends => ?_, hgone _ _⟩
    refine hcross e he ⟨w.token, X.raw w.obj, s.kernel, callOf (some m) (X.raw w.obj), r⟩ ?_ hends t het ht
    simp [actionCalls, Option.mem_def.mp hw]
  | destroy o r =>
    intro w hw t ht
    refine ⟨fun e he het hends => ?_, hgone _ _⟩
    refine hcross e he ⟨w.token, X.raw w.obj, s.kernel, callOf none (X.raw w.obj), r⟩ ?_ hends t het ht
    simp [actionCalls, Option.mem_def.mp hw]
  | _ => trivial

/-- Where the kernel takes nothing away, a run is respectful throughout exactly when no
object acts after a call of its own ended its resource. -/
theorem respectful_iff_careful (hK : K.Lawful X owns gone) (hX : X.SingleCall callOf)
    (hgone : ∀ k t, ¬ gone k t) (k : κ) (g : Γ) (as : List (Action ι R D M E)) :
    Machine.Always (Owners.step X K) (fun s => Respectful X K owns s.log) (State.init k g) as ↔
      Machine.Guarded (Owners.step X K) (Careful K gone) (State.init k g) as := by
  refine Machine.always_iff_guarded
    (I := fun s => Safe X K owns gone (s.view X) s.kernel s.log) ?_ ?_ ?_ (Safe.init k g)
  · exact fun h => ⟨h.ends_once, h.final, h.rightful⟩
  · exact fun h hcare hstep => h.step hK hcare hstep
  · intro s a s' _ hstep hP
    have hfinal := hP.2.1
    rw [hX.step_calls hstep] at hfinal
    exact careful_of_final hgone hfinal

end Owners
