-- SUMMARY: Guarded safety: while no object acts on a resource it has lost, every call is made on the caller's own resource.
import Pposix.Owners.Effect

/-!
# Safety of owners

A resource is intact as long as no call of its owner ended it and the kernel did
not take it away. The guard of this file lets an object act only while its
resource is intact. Under it every call in the log is rightful: it is made on the
resource the acting object acquired, or on the null handle.
-/

namespace Owners

variable {ι κ C R E Γ W D M : Type}

/-! ## Kernels that respect ownership -/

/-- `owns k t d` says that the handle `d` denotes the resource `t`, which belongs
to an object. `gone k t` says that the kernel took the resource away by itself. -/
structure Kernel.Lawful (K : Kernel κ C R D E) (X : Class C R Γ W D M)
    (owns : κ → Nat → D → Prop) (gone : κ → Nat → Prop) : Prop where
  issue_fresh : ∀ {k d k'}, K.issue k d = some k' → K.fresh k' = K.fresh k + 1
  issue_ne_null : ∀ {k d k'}, K.issue k d = some k' → d ≠ X.null
  issue_owns : ∀ {k d k'}, K.issue k d = some k' → owns k' (K.fresh k) d
  issue_keeps : ∀ {k d k' t d'}, K.issue k d = some k' → owns k t d' → owns k' t d'
  issue_gone : ∀ {k d k' t}, K.issue k d = some k' → (gone k t → gone k' t)
  answer_fresh : ∀ {k c r k'}, K.answer k c r = some k' → K.fresh k' = K.fresh k
  answer_gone : ∀ {k c r k' t}, K.answer k c r = some k' → (gone k t → gone k' t)
  answer_null : ∀ {k c r k' t d}, K.answer k c r = some k' → X.touches c = some X.null →
    owns k t d → owns k' t d
  answer_self : ∀ {k c r k' t d}, K.answer k c r = some k' → X.touches c = some d →
    K.ends c r = false → owns k t d → owns k' t d
  answer_keeps : ∀ {k c r k' t u d d'}, K.answer k c r = some k' → X.touches c = some d →
    owns k t d → t ≠ u → owns k u d' → owns k' u d'
  release_fresh : ∀ {k t}, K.fresh (K.release k t) = K.fresh k
  release_gone : ∀ {k t u}, gone k u → gone (K.release k t) u
  release_keeps : ∀ {k t u d}, t ≠ u → owns k u d → owns (K.release k t) u d
  other_fresh : ∀ {k e k'}, K.other k e = some k' → K.fresh k ≤ K.fresh k'
  other_gone : ∀ {k e k' t}, K.other k e = some k' → (gone k t → gone k' t)
  other_keeps : ∀ {k e k' t d}, K.other k e = some k' → ¬ gone k' t → owns k t d → owns k' t d

/-! ## The guard -/

section Guard

variable (X : Class C R Γ W D M) (K : Kernel κ C R D E) (owns : κ → Nat → D → Prop)
  (gone : κ → Nat → Prop)

/-- No call of its owner ended the resource, and the kernel did not take it away. -/
def Intact (k : κ) (log : List (Entry κ C R D)) (t : Nat) : Prop :=
  (∀ e ∈ calls log, e.token = some t → ¬ K.Ends e) ∧ ¬ gone k t

/-- The call is made on the resource the acting object acquired, or on the null
handle when the object owns nothing. -/
def Rightful (e : Call κ C R D) : Prop :=
  X.touches e.call = some e.raw ∧
    match e.token with
    | none => e.raw = X.null
    | some t => owns e.before t e.raw

/-- An object acts only while its resource is intact. -/
def Careful (s : State ι κ C R Γ W D) : Action ι R D M E → Prop
  | .method o _ _ => ∀ w ∈ s.objs o, ∀ t ∈ w.token, Intact K gone s.kernel s.log t
  | .destroy o _ => ∀ w ∈ s.objs o, ∀ t ∈ w.token, Intact K gone s.kernel s.log t
  | _ => True

instance [∀ k t, Decidable (gone k t)] (k : κ) (log : List (Entry κ C R D)) (t : Nat) :
    Decidable (Intact K gone k log t) :=
  inferInstanceAs (Decidable ((∀ e ∈ calls log, e.token = some t → ¬ K.Ends e) ∧ ¬ gone k t))

instance [∀ k t, Decidable (gone k t)] (s : State ι κ C R Γ W D) (a : Action ι R D M E) :
    Decidable (Careful K gone s a) :=
  match a with
  | .method o _ _ => inferInstanceAs
      (Decidable (∀ w ∈ s.objs o, ∀ t ∈ w.token, Intact K gone s.kernel s.log t))
  | .destroy o _ => inferInstanceAs
      (Decidable (∀ w ∈ s.objs o, ∀ t ∈ w.token, Intact K gone s.kernel s.log t))
  | .default _ | .adopt .. | .moveConstruct .. | .assign .. | .release _ | .other _ => isTrue trivial

/-- What holds of the holdings, the kernel and the log along a guarded run. -/
structure Safe (p : ι → Option (D × Option Nat)) (k : κ) (log : List (Entry κ C R D)) : Prop where
  held : Held X.null (fun t d => t < K.fresh k ∧ (Intact K gone k log t → owns k t d)) p
  logged : ∀ e ∈ calls log, ∀ t ∈ e.token, t < K.fresh k
  rightful : ∀ e ∈ calls log, Rightful X owns e
  /-- After a call that ended a resource, its owner makes no call. -/
  final : (calls log).Pairwise fun e e' => K.Ends e → ∀ t, e.token = some t → e'.token ≠ some t

end Guard

/-! ## Preservation -/

section Preservation

variable {X : Class C R Γ W D M} {K : Kernel κ C R D E} {owns : κ → Nat → D → Prop}
  {gone : κ → Nat → Prop} {p : ι → Option (D × Option Nat)} {k k' : κ}
  {log log' : List (Entry κ C R D)}

theorem Intact.of_append {es : List (Entry κ C R D)} {t : Nat}
    (h : Intact K gone k' (log ++ es) t) (hgone : gone k t → gone k' t) : Intact K gone k log t :=
  ⟨fun e he => h.1 e (by simp [he]), fun hg => h.2 (hgone hg)⟩

/-- A log with the same calls says the same. -/
theorem Safe.of_calls (h : Safe X K owns gone p k log) (hcalls : calls log' = calls log) :
    Safe X K owns gone p k log' := by
  have hintact : ∀ t, Intact K gone k log' t ↔ Intact K gone k log t := by
    intro t
    unfold Intact
    rw [hcalls]
  refine ⟨h.held.mono fun _ hgood => ⟨hgood.1, fun hi => hgood.2 ((hintact _).mp hi)⟩, ?_, ?_, ?_⟩
  · rw [hcalls]; exact h.logged
  · rw [hcalls]; exact h.rightful
  · rw [hcalls]; exact h.final

/-- A rightful use of one object's handle keeps what is known of everybody else,
and of the object itself unless the call ended its resource. -/
theorem Safe.used (hK : K.Lawful X owns gone) (h : Safe X K owns gone p k log) {o : ι} {d : D}
    {t : Option Nat} {r : R} {b : Bool} (ho : p o = some (d, t))
    (hcare : ∀ u ∈ t, Intact K gone k log u) (hu : Used X K t d r k log k' log' b) :
    Safe X K owns gone p k' log' := by
  cases hu with
  | idle => exact h
  | @call c _ htouch hans =>
    have hfresh := hK.answer_fresh hans
    have hown : ∀ u, t = some u → owns k u d := fun u hut => by
      subst hut
      exact (h.held.good ho).2 (hcare u rfl)
    refine ⟨?_, ?_, ?_, ?_⟩
    · refine h.held.mono fun {o' d' u} ho' hgood => ⟨hfresh ▸ hgood.1, fun hi => ?_⟩
      have howns := hgood.2 (hi.of_append (hK.answer_gone hans))
      cases ht : t with
      | none =>
        subst ht
        have hnull : d = X.null := (h.held.none_iff ho).mp rfl
        exact hK.answer_null hans (hnull ▸ htouch) howns
      | some v =>
        subst ht
        by_cases hvu : v = u
        · -- The object's own resource: it survives because the call did not end it.
          subst hvu
          obtain rfl := h.held.exclusive ho' ho
          rw [ho] at ho'
          cases ho'
          have hends := hi.1 ⟨some v, d, k, c, r⟩ (by simp) rfl
          exact hK.answer_self hans htouch (by simpa [Kernel.Ends] using hends) howns
        · exact hK.answer_keeps hans htouch (hown v rfl) hvu howns
    · intro e he u hu
      rcases mem_calls_called.mp he with he | rfl
      · exact hfresh ▸ h.logged e he u hu
      · obtain rfl : t = some u := hu
        exact hfresh ▸ (h.held.good ho).1
    · intro e he
      rcases mem_calls_called.mp he with he | rfl
      · exact h.rightful e he
      · refine ⟨htouch, ?_⟩
        cases t with
        | none => exact (h.held.none_iff ho).mp rfl
        | some u => exact hown u rfl
    · rw [calls_append]
      refine List.pairwise_append.mpr ⟨h.final, by simp, ?_⟩
      intro e he e' he' hends u heu hu
      obtain rfl : e' = ⟨t, d, k, c, r⟩ := by simpa using he'
      exact (hcare u hu).1 e he heu hends

/-- The kernel moved on without touching any resource that is held and intact. -/
theorem Safe.kernel_mono (h : Safe X K owns gone p k log) (hfresh : K.fresh k ≤ K.fresh k')
    (hgone : ∀ {t}, gone k t → gone k' t)
    (hkeep : ∀ {o d t}, p o = some (d, some t) → ¬ gone k' t → owns k t d → owns k' t d) :
    Safe X K owns gone p k' log where
  held := h.held.mono fun ho hgood => ⟨Nat.lt_of_lt_of_le hgood.1 hfresh, fun hi =>
    hkeep ho hi.2 (hgood.2 ⟨hi.1, fun hg => hi.2 (hgone hg)⟩)⟩
  logged := fun e he t ht => Nat.lt_of_lt_of_le (h.logged e he t ht) hfresh
  rightful := h.rightful
  final := h.final

theorem Safe.init (k : κ) (g : Γ) :
    Safe X K owns gone ((State.init k g : State ι κ C R Γ W D).view X) k [] where
  held := Held.init
  logged := by simp [calls]
  rightful := by simp [calls]
  final := List.Pairwise.nil

/-- A resource is ended at most once. -/
theorem Safe.ends_once (h : Safe X K owns gone p k log) (t : Nat) :
    ((calls log).filter fun e => K.Ends e ∧ e.token = some t).length ≤ 1 := by
  have hpair := h.final.filter fun e => decide (K.Ends e ∧ e.token = some t)
  have hmem : ∀ e ∈ (calls log).filter fun e => decide (K.Ends e ∧ e.token = some t),
      K.Ends e ∧ e.token = some t := fun e he => by simpa using (List.mem_filter.mp he).2
  match hl : (calls log).filter fun e => decide (K.Ends e ∧ e.token = some t) with
  | [] => simp
  | [_] => simp
  | a :: b :: l =>
    rw [hl] at hpair hmem
    obtain ⟨hends, hat⟩ := hmem a (by simp)
    obtain ⟨-, hbt⟩ := hmem b (by simp)
    exact absurd hbt ((List.pairwise_cons.mp hpair).1 b (by simp) hends t hat)

variable [DecidableEq ι]

theorem Safe.adopt (hK : K.Lawful X owns gone) (h : Safe X K owns gone p k log) {o : ι} {d : D}
    (hissue : K.issue k d = some k') :
    Safe X K owns gone (Function.update p o (some (d, some (K.fresh k)))) k' log := by
  have hlt : K.fresh k < K.fresh k' := by simp [hK.issue_fresh hissue]
  have h' : Safe X K owns gone p k' log :=
    h.kernel_mono (Nat.le_of_lt hlt) (hK.issue_gone hissue) fun _ _ => hK.issue_keeps hissue
  refine { h' with held := h'.held.update ?_ ?_ ?_ }
  · intro d' t ht
    cases ht
    simp [hK.issue_ne_null hissue]
  · intro d' t ht
    cases ht
    exact ⟨hlt, fun _ => hK.issue_owns hissue⟩
  · intro a d' d'' t ht ha
    cases ht
    exact absurd (h.held.good ha).1 (Nat.lt_irrefl _)

theorem Safe.release (hK : K.Lawful X owns gone) (h : Safe X K owns gone p k log) {o : ι} {d : D}
    {t : Option Nat} (ho : p o = some (d, t)) :
    Safe X K owns gone (Function.update p o (some (X.null, none))) (t.elim k (K.release k)) log := by
  have h' : Safe X K owns gone (Function.update p o (some (X.null, none))) k log :=
    { h with held := h.held.update_null o }
  cases t with
  | none => exact h'
  | some t =>
    refine h'.kernel_mono (Nat.le_of_eq hK.release_fresh.symm) hK.release_gone fun {a d' u} ha _ howns => ?_
    refine hK.release_keeps ?_ howns
    rintro rfl
    rcases update_cases ha with ⟨-, ha⟩ | ⟨hao, ha⟩
    · cases ha
    · exact hao (h.held.exclusive ha ho)

variable [DecidableEq D]

/-- The object that used its handle keeps it or drops it. -/
theorem Safe.settle (h : Safe X K owns gone p k log) {o : ι} {d d' : D} {t : Option Nat}
    (ho : p o = some (d, t)) (hd : d' = d ∨ d' = X.null) :
    Safe X K owns gone
      (Function.update p o (some (d', if d' = X.null then none else t))) k log := by
  refine { h with held := ?_ }
  by_cases hnull : d' = X.null
  · rw [if_pos hnull, hnull]
    exact h.held.update_null o
  · obtain rfl := hd.resolve_right hnull
    rw [if_neg hnull, ← ho, Function.update_eq_self]
    exact h.held

/-- Every careful step keeps the invariant. -/
theorem Safe.step (hK : K.Lawful X owns gone) {s s' : State ι κ C R Γ W D}
    {a : Action ι R D M E} (h : Safe X K owns gone (s.view X) s.kernel s.log)
    (hcare : Careful K gone s a) (hstep : Owners.step X K s a = some s') :
    Safe X K owns gone (s'.view X) s'.kernel s'.log := by
  have hintact : ∀ {o d t}, s.view X o = some (d, t) →
      (∀ w ∈ s.objs o, ∀ u ∈ w.token, Intact K gone s.kernel s.log u) →
      ∀ u ∈ t, Intact K gone s.kernel s.log u := by
    intro o d t ho hc
    obtain ⟨w, hw, heq⟩ := Option.map_eq_some_iff.mp ho
    cases heq
    exact hc w hw
  have heff := step_effect hstep
  generalize s'.view X = p', s'.kernel = k', s'.log = log' at heff
  cases heff with
  | default ho => exact { h with held := h.held.update_null _ }
  | adopt ho hissue => exact (h.adopt hK hissue).of_calls (by simp)
  | moveConstruct ho hsrc => exact { h with held := (h.held.update_null _).comp_perm _ }
  | assign ha hb => exact { h with held := h.held.comp_perm _ }
  | method ho hused hraw htidy =>
    have hafter := h.used hK ho (hintact ho hcare) hused
    exact hafter.settle ho hraw
  | release ho => exact (h.release hK ho).of_calls (by simp)
  | @destroy o r d t _ log₁ b ho hused _ =>
    have hafter := h.used hK ho (hintact ho hcare) hused
    have hgone := { hafter with held := hafter.held.update_none o : Safe X K owns gone _ _ _ }
    exact hgone.of_calls (calls_bury K t log₁)
  | other hother =>
    exact h.kernel_mono (hK.other_fresh hother) (hK.other_gone hother)
      fun _ => hK.other_keeps hother

end Preservation

end Owners
