-- SUMMARY: The log as a ledger: every entry is justified by the entries before it, and handles stay with their tokens.
import Pposix.Owners.Conservation

/-!
# The log as a ledger

A token stays with the handle it was adopted under: whoever holds the token holds
that handle, and whoever closes or releases it does so under that handle. An entry
that says a resource was abandoned follows the failed call of the destructor.
-/

namespace Owners

variable {ι κ C R E Γ W D M : Type}

/-- What a new entry of the log rests on. -/
def Justified (K : Kernel κ C R D E) (k k' : κ) (log : List (Entry κ C R D)) :
    Entry κ C R D → Prop
  | .adopted t _ => t = K.fresh k ∧ t < K.fresh k'
  | .called e => (∀ t ∈ e.token, .adopted t e.raw ∈ log) ∧
      (K.answer e.before e.call e.answer).isSome
  | .released t d => ∀ u ∈ t, .adopted u d ∈ log
  | .abandoned t => ∃ l e, log = l ++ [.called e] ∧ e.token = some t ∧ ¬ K.Ends e

structure Ledger (K : Kernel κ C R D E) (p : ι → Option (D × Option Nat)) (k : κ)
    (log : List (Entry κ C R D)) : Prop where
  held : ∀ {o d t}, p o = some (d, some t) → .adopted t d ∈ log
  called : ∀ e ∈ calls log, ∀ t ∈ e.token, .adopted t e.raw ∈ log
  answered : ∀ e ∈ calls log, (K.answer e.before e.call e.answer).isSome
  released : ∀ {t d}, .released (some t) d ∈ log → .adopted t d ∈ log
  bounded : ∀ {t d}, .adopted t d ∈ log → t < K.fresh k
  unique : ∀ {t d d'}, .adopted t d ∈ log → .adopted t d' ∈ log → d = d'
  abandoned : ∀ {l t}, l ++ [.abandoned t] <+: log →
    ∃ l₀ e, l = l₀ ++ [.called e] ∧ e.token = some t ∧ ¬ K.Ends e

/-- Where a resource is that was adopted under the handle `d`. -/
def Located (K : Kernel κ C R D E) (p : ι → Option (D × Option Nat)) (log : List (Entry κ C R D))
    (t : Nat) (d : D) : Place ι → Prop
  | .held o => p o = some (d, some t)
  | .left .closed => ∃ e ∈ calls log, e.token = some t ∧ e.raw = d ∧ K.Ends e
  | .left .released => .released (some t) d ∈ log
  | .left .abandoned => .abandoned t ∈ log

variable {X : Class C R Γ W D M} {K : Kernel κ C R D E} {owns : κ → Nat → D → Prop}
  {gone : κ → Nat → Prop} {p p' : ι → Option (D × Option Nat)} {k k' : κ}
  {log log' : List (Entry κ C R D)}

theorem mem_endings {t : Nat} {f : Fate} :
    (t, f) ∈ K.endings log ↔ ∃ x ∈ log, K.ending x = some (t, f) :=
  List.mem_filterMap

/-- The places of a token are the same whether or not the handle is asked for. -/
theorem Ledger.located_iff (h : Ledger K p k log) {t : Nat} {d : D} (ht : .adopted t d ∈ log)
    (pl : Place ι) : Located K p log t d pl ↔ At K p log t pl := by
  cases pl with
  | held o =>
    constructor
    · exact fun ho => ⟨d, ho⟩
    · rintro ⟨d', ho⟩
      rw [h.unique ht (h.held ho)]
      exact ho
  | left f =>
    refine Iff.trans ?_ mem_endings.symm
    cases f with
    | closed =>
      constructor
      · rintro ⟨e, he, het, -, hends⟩
        exact ⟨.called e, mem_calls.mp he, by simp [Kernel.ending, hends, het]⟩
      · rintro ⟨x, hx, hxt⟩
        cases x with
        | called e =>
          have he := mem_calls.mpr hx
          by_cases hends : K.Ends e
          · have het : e.token = some t := by simpa [Kernel.ending, hends] using hxt
            exact ⟨e, he, het, h.unique (h.called e he t het) ht, hends⟩
          · simp [Kernel.ending, hends] at hxt
        | adopted u d => cases hxt
        | released u d => cases u <;> cases hxt
        | abandoned u => cases hxt
    | released =>
      constructor
      · exact fun hr => ⟨_, hr, rfl⟩
      · rintro ⟨x, hx, hxt⟩
        cases x with
        | called e => by_cases hends : K.Ends e <;> simp [Kernel.ending, hends] at hxt
        | adopted u d => cases hxt
        | released u d' =>
          obtain rfl : u = some t := by simpa [Kernel.ending] using hxt
          rw [h.unique ht (h.released hx)]
          exact hx
        | abandoned u => cases hxt
    | abandoned =>
      constructor
      · exact fun ha => ⟨_, ha, rfl⟩
      · rintro ⟨x, hx, hxt⟩
        cases x with
        | called e => by_cases hends : K.Ends e <;> simp [Kernel.ending, hends] at hxt
        | adopted u d => cases hxt
        | released u d => cases u <;> cases hxt
        | abandoned u =>
          cases hxt
          exact hx

/-- A resource that was adopted is in exactly one place, under the handle it was adopted with. -/
theorem Ledger.existsUnique_located (h : Ledger K p k log) (hs : Safe X K owns gone p k log)
    (hc : Conserved K p k log) {t : Nat} {d : D} (ht : .adopted t d ∈ log) :
    ∃! pl : Place ι, Located K p log t d pl := by
  simp only [h.located_iff ht]
  exact hc.existsUnique_place hs ⟨d, ht⟩

/-! ## Preservation -/

/-- A ledger stays one when a justified entry is written. -/
theorem Ledger.push (h : Ledger K p k log) {x : Entry κ C R D} (hx : Justified K k k' log x)
    (hfresh : K.fresh k ≤ K.fresh k') : Ledger K p k' (log ++ [x]) where
  held := fun ho => List.mem_append_left _ (h.held ho)
  called := by
    intro e he t ht
    rcases List.mem_append.mp (mem_calls.mp he) with he | he
    · exact List.mem_append_left _ (h.called e (mem_calls.mpr he) t ht)
    · obtain rfl : .called e = x := List.mem_singleton.mp he
      exact List.mem_append_left _ (hx.1 t ht)
  answered := by
    intro e he
    rcases List.mem_append.mp (mem_calls.mp he) with he | he
    · exact h.answered e (mem_calls.mpr he)
    · obtain rfl : .called e = x := List.mem_singleton.mp he
      exact hx.2
  released := by
    intro t d ht
    rcases List.mem_append.mp ht with ht | ht
    · exact List.mem_append_left _ (h.released ht)
    · obtain rfl : .released (some t) d = x := List.mem_singleton.mp ht
      exact List.mem_append_left _ (hx t rfl)
  bounded := by
    intro t d ht
    rcases List.mem_append.mp ht with ht | ht
    · exact Nat.lt_of_lt_of_le (h.bounded ht) hfresh
    · obtain rfl : .adopted t d = x := List.mem_singleton.mp ht
      exact hx.2
  unique := by
    -- A token in the log so far is not the fresh one.
    have hold : ∀ {t d d'}, .adopted t d ∈ log → .adopted t d' = x → False := by
      rintro t d d' ht rfl
      exact Nat.lt_irrefl _ (hx.1 ▸ h.bounded ht)
    intro t d d' ht ht'
    rcases List.mem_append.mp ht with ht | ht <;> rcases List.mem_append.mp ht' with ht' | ht'
    · exact h.unique ht ht'
    · exact (hold ht (List.mem_singleton.mp ht')).elim
    · exact (hold ht' (List.mem_singleton.mp ht)).elim
    · cases (List.mem_singleton.mp ht).trans (List.mem_singleton.mp ht').symm
      rfl
  abandoned := by
    intro l t hl
    rcases List.prefix_concat_iff.mp hl with heq | hl
    · obtain ⟨rfl, hxt⟩ := List.append_inj' heq rfl
      cases hxt
      exact hx
    · exact h.abandoned hl

/-- The holders keep what they hold or drop it, or hold what was adopted. -/
theorem Ledger.rehold (h : Ledger K p k log)
    (hp : ∀ {o d t}, p' o = some (d, some t) → .adopted t d ∈ log) : Ledger K p' k log :=
  { h with held := hp }

theorem Ledger.used {t : Option Nat} {d : D} {r : R} {b : Bool} (hK : K.Lawful X owns gone)
    (h : Ledger K p k log) {o : ι} (ho : p o = some (d, t))
    (hu : Used X K t d r k log k' log' b) : Ledger K p k' log' := by
  cases hu with
  | idle => exact h
  | call hc hk =>
    refine h.push ⟨?_, by simp [hk]⟩ (Nat.le_of_eq (hK.answer_fresh hk).symm)
    intro u hu
    obtain rfl : t = some u := hu
    exact h.held ho

theorem Ledger.init (k : κ) (g : Γ) :
    Ledger K ((State.init k g : State ι κ C R Γ W D).view X) k [] where
  held := by intro o d t h; cases h
  called := by intro e h; cases h
  answered := by intro e h; cases h
  released := by intro t d h; cases h
  bounded := by intro t d h; cases h
  unique := by intro t d d' h; cases h
  abandoned := by intro l t h; simpa using h.length_le

variable [DecidableEq ι]

theorem Ledger.update (h : Ledger K p k log) {o : ι} {x : Option (D × Option Nat)}
    (hx : ∀ {d t}, x = some (d, some t) → .adopted t d ∈ log) :
    Ledger K (Function.update p o x) k log := by
  refine h.rehold fun {a d t} ha => ?_
  rcases update_cases ha with ⟨-, ha⟩ | ⟨-, ha⟩
  · exact hx ha
  · exact h.held ha

variable [DecidableEq D]

theorem Ledger.step (hK : K.Lawful X owns gone) (hX : X.Diligent) {s s' : State ι κ C R Γ W D}
    {a : Action ι R D M E} (h : Ledger K (s.view X) s.kernel s.log)
    (hstep : Owners.step X K s a = some s') : Ledger K (s'.view X) s'.kernel s'.log := by
  have heff := step_effect hstep
  generalize s'.view X = p', s'.kernel = k', s'.log = log' at heff
  cases heff with
  | default ho => exact h.update (by simp)
  | @adopt o d _ ho hissue =>
    have hlt := hK.issue_fresh hissue
    have hj : Justified K s.kernel k' s.log (.adopted (K.fresh s.kernel) d) := ⟨rfl, by omega⟩
    refine Ledger.update (h.push hj (by omega)) ?_
    intro d t ht
    cases ht
    simp
  | @moveConstruct o src ho hsrc =>
    have hnew : Ledger K (Function.update (s.view X) o (some (X.null, none))) s.kernel s.log :=
      h.update (by simp)
    exact hnew.rehold fun ha => hnew.held ha
  | assign ha hb => exact h.rehold fun ha => h.held ha
  | @method o m r d d' t _ _ b ho hused hraw _ =>
    have hafter := h.used hK ho hused
    apply hafter.update
    intro d₁ u hu
    simp only [Option.some.injEq, Prod.mk.injEq] at hu
    obtain ⟨rfl, ht⟩ := hu
    split at ht
    · cases ht
    · rename_i hne
      rw [hraw.resolve_right hne]
      exact hafter.held (ht ▸ ho)
  | @release o d t ho =>
    have hj : Justified K s.kernel (t.elim s.kernel (K.release s.kernel)) s.log (.released t d) := by
      intro u hu
      obtain rfl : t = some u := hu
      exact h.held ho
    have hle : K.fresh s.kernel ≤ K.fresh (t.elim s.kernel (K.release s.kernel)) := by
      cases t with
      | none => exact Nat.le_refl _
      | some t => exact Nat.le_of_eq hK.release_fresh.symm
    exact (h.push hj hle).update (by simp)
  | @destroy o r d t k₁ log₁ b ho hused hdil =>
    have hafter := h.used hK ho hused
    refine Ledger.update ?_ (by simp)
    cases t with
    | none => exact hafter
    | some t =>
      simp only [Kernel.bury]
      split
      · exact hafter
      · rename_i hleft
        cases hused with
        | idle => exact absurd rfl (hdil hX)
        | @call c _ hc hk =>
          refine hafter.push (x := .abandoned t) ⟨_, _, rfl, rfl, fun hends => hleft ?_⟩
            (Nat.le_refl _)
          exact leavers_of_ends (by simp) rfl hends
  | other hother =>
    exact { h with bounded := fun ht => Nat.lt_of_lt_of_le (h.bounded ht) (hK.other_fresh hother) }

/-- The three invariants of a run together. -/
structure Accounted (X : Class C R Γ W D M) (K : Kernel κ C R D E) (owns : κ → Nat → D → Prop)
    (gone : κ → Nat → Prop) (s : State ι κ C R Γ W D) : Prop where
  safe : Safe X K owns gone (s.view X) s.kernel s.log
  conserved : Conserved K (s.view X) s.kernel s.log
  ledger : Ledger K (s.view X) s.kernel s.log

/-- The runs of a tidy, diligent class account for every resource, as long as no object
acts on a resource that the kernel took away. -/
theorem accounted_of_undropped (hK : K.Lawful X owns gone) (hX : X.Tidy K) (hD : X.Diligent)
    {k : κ} {g : Γ} {as : List (Action ι R D M E)}
    (hG : Machine.Guarded (Owners.step X K) (Undropped gone) (State.init k g) as) :
    Machine.Always (Owners.step X K) (Accounted X K owns gone) (State.init k g) as := by
  refine hG.always id ?_ ⟨Safe.init k g, Conserved.init k g, Ledger.init k g⟩
  intro s a s' h hundropped hstep
  exact ⟨h.safe.step hK (h.conserved.careful hundropped) hstep,
    h.conserved.step hK hX h.safe hstep, h.ledger.step hK hD hstep⟩

end Owners
