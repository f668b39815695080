-- SUMMARY: Conservation: a resource handed to a tidy class is with exactly one object or has left for exactly one reason.
import Pposix.Owners.Safety
import Mathlib.Data.List.Nodup

/-!
# Conservation

Objects of a tidy class drop their handle exactly when a call of theirs ended the
resource. Then every resource that was ever adopted is in exactly one place: with
one object, or gone for one of the reasons of `Fate`.
-/

namespace Owners

variable {ι κ C R E Γ W D M : Type}

/-- Where an adopted resource can be. -/
inductive Place (ι : Type) where
  | held (o : ι)
  | left (f : Fate)

section Conserved

variable (K : Kernel κ C R D E)

/-- The resource was handed to an object at some time. -/
def Adopted (log : List (Entry κ C R D)) (t : Nat) : Prop := ∃ d, Entry.adopted t d ∈ log

/-- An object holds the token. -/
def HeldBy (p : ι → Option (D × Option Nat)) (t : Nat) (o : ι) : Prop :=
  ∃ d, p o = some (d, some t)

def At (p : ι → Option (D × Option Nat)) (log : List (Entry κ C R D)) (t : Nat) :
    Place ι → Prop
  | .held o => HeldBy p t o
  | .left f => (t, f) ∈ K.endings log

/-- No token is both held and gone, none went twice, and no adopted token is lost. -/
structure Conserved (p : ι → Option (D × Option Nat)) (k : κ) (log : List (Entry κ C R D)) :
    Prop where
  held : ∀ {o t}, HeldBy p t o → t ∉ K.leavers log
  nodup : (K.leavers log).Nodup
  covered : ∀ {t}, Adopted log t → (∃ o, HeldBy p t o) ∨ t ∈ K.leavers log
  bounded : ∀ t ∈ K.leavers log, t < K.fresh k

end Conserved

variable {X : Class C R Γ W D M} {K : Kernel κ C R D E} {owns : κ → Nat → D → Prop}
  {gone : κ → Nat → Prop} {p p' : ι → Option (D × Option Nat)} {k k' : κ}
  {log log' : List (Entry κ C R D)}

@[simp] theorem Kernel.leavers_append (l₁ l₂ : List (Entry κ C R D)) :
    K.leavers (l₁ ++ l₂) = K.leavers l₁ ++ K.leavers l₂ := by
  simp [Kernel.leavers]

@[simp] theorem Kernel.leavers_adopted (t : Nat) (d : D) :
    K.leavers ([.adopted t d] : List (Entry κ C R D)) = [] := rfl

theorem Kernel.leavers_called (e : Call κ C R D) :
    K.leavers [.called e] = if K.Ends e then e.token.toList else [] := by
  by_cases h : K.Ends e <;> cases ht : e.token <;>
    simp [Kernel.leavers, Kernel.endings, Kernel.ending, h, ht]

@[simp] theorem Kernel.leavers_released (t : Option Nat) (d : D) :
    K.leavers ([.released t d] : List (Entry κ C R D)) = t.toList := by
  cases t <;> rfl

theorem Kernel.leavers_bury (t : Nat) :
    K.leavers (K.bury (some t) log) =
      if t ∈ K.leavers log then K.leavers log else K.leavers log ++ [t] := by
  simp only [Kernel.bury]
  split
  · rfl
  · exact Kernel.leavers_append ..

theorem adopted_append {es : List (Entry κ C R D)} (hes : ∀ t d, .adopted t d ∉ es) {t : Nat}
    (h : Adopted (log ++ es) t) : Adopted log t := by
  obtain ⟨d, hd⟩ := h
  exact ⟨d, (List.mem_append.mp hd).resolve_right (hes t d)⟩

theorem adopted_bury {t : Option Nat} {u : Nat} (h : Adopted (K.bury t log) u) :
    Adopted log u := by
  cases t with
  | none => exact h
  | some t =>
    unfold Kernel.bury at h
    dsimp only at h
    split at h
    · exact h
    · exact adopted_append (by simp) h

theorem leavers_of_ends {e : Call κ C R D} {t : Nat} (he : e ∈ calls log)
    (ht : e.token = some t) (hends : K.Ends e) : t ∈ K.leavers log := by
  have hend : K.ending (.called e) = some (t, .closed) := by simp [Kernel.ending, hends, ht]
  exact List.mem_map.mpr ⟨_, List.mem_filterMap.mpr ⟨_, mem_calls.mp he, hend⟩, rfl⟩

/-- A conserved resource is in exactly one place. -/
theorem Conserved.existsUnique_place (h : Conserved K p k log) (hs : Safe X K owns gone p k log)
    {t : Nat} (ht : Adopted log t) : ∃! pl : Place ι, At K p log t pl := by
  have hfate : ∀ {f}, (t, f) ∈ K.endings log → t ∈ K.leavers log :=
    fun hf => List.mem_map.mpr ⟨_, hf, rfl⟩
  rcases h.covered ht with ⟨o, ho⟩ | hleft
  · refine ⟨.held o, ho, fun pl hpl => ?_⟩
    cases pl with
    | held o' =>
      obtain ⟨d, hd⟩ := ho
      obtain ⟨d', hd'⟩ := hpl
      rw [hs.held.exclusive hd' hd]
    | left f => exact absurd (hfate hpl) (h.held ho)
  · obtain ⟨⟨t', f⟩, hf, rfl⟩ := List.mem_map.mp hleft
    refine ⟨.left f, hf, fun pl hpl => ?_⟩
    cases pl with
    | held o => exact absurd hleft (h.held hpl)
    | left f' =>
      cases List.inj_on_of_nodup_map h.nodup hpl hf rfl
      rfl

/-- A token that is held was not ended by a call. -/
theorem Conserved.intact (h : Conserved K p k log) {o : ι} {t : Nat} (ho : HeldBy p t o)
    (hgone : ¬ gone k t) : Intact K gone k log t :=
  ⟨fun _ he het hends => h.held ho (leavers_of_ends he het hends), hgone⟩

/-! ## Preservation -/

/-- Neither the holdings nor the log say that a token came or went. -/
theorem Conserved.stay (h : Conserved K p k log)
    (hheld : ∀ t, (∃ o, HeldBy p' t o) ↔ ∃ o, HeldBy p t o)
    (hleft : K.leavers log' = K.leavers log) (hadopt : ∀ t, Adopted log' t → Adopted log t)
    (hfresh : K.fresh k ≤ K.fresh k') : Conserved K p' k' log' where
  held := by
    intro o t ho
    obtain ⟨a, ha⟩ := (hheld t).mp ⟨o, ho⟩
    exact hleft ▸ h.held ha
  nodup := hleft ▸ h.nodup
  covered := fun ht => hleft ▸ (h.covered (hadopt _ ht)).imp_left (hheld _).mpr
  bounded := fun t ht => Nat.lt_of_lt_of_le (h.bounded t (hleft ▸ ht)) hfresh

theorem heldBy_comp_perm (e : Equiv.Perm ι) (t : Nat) :
    (∃ o, HeldBy (p ∘ e) t o) ↔ ∃ o, HeldBy p t o :=
  ⟨fun ⟨o, h⟩ => ⟨e o, h⟩, fun ⟨o, h⟩ => ⟨e.symm o, by simpa [HeldBy] using h⟩⟩

variable [DecidableEq ι]

/-- The token of one object left, and the object holds no token now. -/
theorem Conserved.leave (h : Conserved K p k log) (hs : Safe X K owns gone p k log) {o : ι} {d : D}
    {t : Nat} (ho : p o = some (d, some t)) {x : Option (D × Option Nat)}
    (hx : ∀ d u, x ≠ some (d, some u)) (hleft : K.leavers log' = K.leavers log ++ [t])
    (hadopt : ∀ t, Adopted log' t → Adopted log t) (hfresh : K.fresh k ≤ K.fresh k') :
    Conserved K (Function.update p o x) k' log' where
  held := by
    rintro a u ⟨d', ha⟩
    rcases update_cases ha with ⟨-, ha⟩ | ⟨hao, ha⟩
    · exact absurd ha (hx _ _)
    · rw [hleft, List.mem_append, List.mem_singleton]
      rintro (hu | rfl)
      · exact h.held ⟨d', ha⟩ hu
      · exact hao (hs.held.exclusive ha ho)
  nodup := by
    rw [hleft]
    refine List.nodup_append.mpr ⟨h.nodup, by simp, ?_⟩
    rintro u hu v hv rfl
    rw [List.mem_singleton] at hv
    subst hv
    exact h.held ⟨d, ho⟩ hu
  covered := by
    intro u hu
    rw [hleft, List.mem_append, List.mem_singleton]
    by_cases hut : u = t
    · exact .inr (.inr hut)
    · refine (h.covered (hadopt u hu)).imp ?_ .inl
      rintro ⟨a, d', ha⟩
      refine ⟨a, d', ?_⟩
      have hao : a ≠ o := by
        rintro rfl
        rw [ho] at ha
        cases ha
        exact hut rfl
      rw [Function.update_of_ne hao, ha]
  bounded := by
    intro u hu
    rw [hleft, List.mem_append, List.mem_singleton] at hu
    rcases hu with hu | rfl
    · exact Nat.lt_of_lt_of_le (h.bounded u hu) hfresh
    · exact Nat.lt_of_lt_of_le (hs.held.good ho).1 hfresh

/-! ## Steps -/

/-- What a method did to the log, as far as tokens are concerned. -/
theorem Used.leavers {t : Option Nat} {d : D} {r : R} {b : Bool}
    (h : Used X K t d r k log k' log' b) :
    K.leavers log' = K.leavers log ++ (if b = true then t.toList else []) := by
  cases h with
  | idle => simp
  | call hc hk =>
    rw [Kernel.leavers_append, Kernel.leavers_called]
    rfl

theorem Used.adopted {t : Option Nat} {d : D} {r : R} {b : Bool}
    (h : Used X K t d r k log k' log' b) {u : Nat} (hu : Adopted log' u) : Adopted log u := by
  cases h with
  | idle => exact hu
  | call hc hk => exact adopted_append (by simp) hu

theorem Used.fresh (hK : K.Lawful X owns gone) {t : Option Nat} {d : D} {r : R} {b : Bool}
    (h : Used X K t d r k log k' log' b) : K.fresh k' = K.fresh k := by
  cases h with
  | idle => rfl
  | call hc hk => exact hK.answer_fresh hk

/-- An object that holds no token is replaced by one that holds none. -/
theorem heldBy_update {o : ι} {x : Option (D × Option Nat)} (hx : ∀ d u, x ≠ some (d, some u))
    (hp : ∀ d u, p o ≠ some (d, some u)) (t : Nat) :
    (∃ a, HeldBy (Function.update p o x) t a) ↔ ∃ a, HeldBy p t a := by
  constructor
  · rintro ⟨a, d, ha⟩
    rcases update_cases ha with ⟨-, ha⟩ | ⟨-, ha⟩
    · exact absurd ha (hx _ _)
    · exact ⟨a, d, ha⟩
  · rintro ⟨a, d, ha⟩
    refine ⟨a, d, ?_⟩
    have hao : a ≠ o := by
      rintro rfl
      exact hp _ _ ha
    rw [Function.update_of_ne hao, ha]

/-- The next token is given to an object that held none. -/
theorem Conserved.adopt (h : Conserved K p k log) {o : ι} {d : D}
    (ho : p o = none) (hfresh : K.fresh k < K.fresh k') :
    Conserved K (Function.update p o (some (d, some (K.fresh k)))) k'
      (log ++ [.adopted (K.fresh k) d]) where
  held := by
    rintro a t ⟨d', ha⟩
    rw [Kernel.leavers_append, Kernel.leavers_adopted, List.append_nil]
    rcases update_cases ha with ⟨-, ha⟩ | ⟨-, ha⟩
    · cases ha
      exact fun ht => Nat.lt_irrefl _ (h.bounded _ ht)
    · exact h.held ⟨d', ha⟩
  nodup := by simpa using h.nodup
  covered := by
    rintro t ⟨d', ht⟩
    rcases List.mem_append.mp ht with ht | ht
    · refine (h.covered ⟨d', ht⟩).imp ?_ fun hl => by simp [hl]
      rintro ⟨a, d'', ha⟩
      have hao : a ≠ o := by
        rintro rfl
        rw [ho] at ha
        cases ha
      exact ⟨a, d'', by rw [Function.update_of_ne hao, ha]⟩
    · simp only [List.mem_singleton, Entry.adopted.injEq] at ht
      exact .inl ⟨o, d, by simp [ht.1]⟩
  bounded := by
    intro t ht
    exact Nat.lt_trans (h.bounded t (by simpa using ht)) hfresh

variable [DecidableEq D]

/-- Every step of a tidy class from a safe state keeps conservation. -/
theorem Conserved.step (hK : K.Lawful X owns gone) (hX : X.Tidy K) {s s' : State ι κ C R Γ W D}
    {a : Action ι R D M E} (hs : Safe X K owns gone (s.view X) s.kernel s.log)
    (h : Conserved K (s.view X) s.kernel s.log) (hstep : Owners.step X K s a = some s') :
    Conserved K (s'.view X) s'.kernel s'.log := by
  have heff := step_effect hstep
  generalize s'.view X = p', s'.kernel = k', s'.log = log' at heff
  cases heff with
  | default ho =>
    exact h.stay (heldBy_update (by simp) (by simp [ho])) rfl (fun _ => id) (Nat.le_refl _)
  | adopt ho hissue =>
    exact h.adopt ho (by simp [hK.issue_fresh hissue])
  | moveConstruct ho hsrc =>
    refine h.stay (fun t => (heldBy_comp_perm _ t).trans ?_) rfl (fun _ => id) (Nat.le_refl _)
    exact heldBy_update (by simp) (by simp [ho]) t
  | assign ha hb => exact h.stay (heldBy_comp_perm _) rfl (fun _ => id) (Nat.le_refl _)
  | @method o m r d d' t _ _ b ho hused hraw htidy =>
    have hle := Nat.le_of_eq (hused.fresh hK).symm
    have hnull := htidy hX
    cases b with
    | false =>
      -- The resource goes on, so the object keeps its handle.
      have hsame : Function.update (s.view X) o (some (d', if d' = X.null then none else t))
          = s.view X := by
        apply Function.update_eq_self_iff.mpr
        rw [ho]
        by_cases hd' : d' = X.null
        · rw [if_pos hd', hd']
          have hd : d = X.null := by simpa using hnull.mp hd'
          rw [hd, (hs.held.none_iff ho).mpr hd]
        · rw [if_neg hd', hraw.resolve_right hd']
      rw [hsame]
      exact h.stay (fun _ => Iff.rfl) (by simpa using hused.leavers) (fun _ => hused.adopted) hle
    | true =>
      rw [hnull.mpr (.inr rfl), if_pos rfl]
      cases t with
      | none =>
        exact h.stay (heldBy_update (by simp) (by simp [ho])) (by simpa using hused.leavers)
          (fun _ => hused.adopted) hle
      | some t =>
        exact h.leave hs ho (by simp) (by simpa using hused.leavers) (fun _ => hused.adopted) hle
  | @release o d t ho =>
    cases t with
    | none =>
      exact h.stay (heldBy_update (by simp) (by simp [ho])) (by simp)
        (fun _ => adopted_append (by simp)) (Nat.le_refl _)
    | some t =>
      exact h.leave hs ho (by simp) (by simp) (fun _ => adopted_append (by simp))
        (Nat.le_of_eq hK.release_fresh.symm)
  | @destroy o r d t _ log₁ b ho hused _ =>
    have hle := Nat.le_of_eq (hused.fresh hK).symm
    have hleft := hused.leavers
    cases t with
    | none =>
      exact h.stay (heldBy_update (by simp) (by simp [ho])) (by simpa [Kernel.bury] using hleft)
        (fun _ => hused.adopted) hle
    | some t =>
      have hheld : t ∉ K.leavers s.log := h.held ⟨d, ho⟩
      refine h.leave hs ho (by simp) ?_ (fun _ hu => hused.adopted (adopted_bury hu)) hle
      rw [Kernel.leavers_bury]
      cases b <;> simp [hleft, hheld]
  | other hother =>
    exact h.stay (fun _ => Iff.rfl) rfl (fun _ => id) (hK.other_fresh hother)

omit [DecidableEq ι] [DecidableEq D] in
theorem Conserved.init (k : κ) (g : Γ) :
    Conserved K ((State.init k g : State ι κ C R Γ W D).view X) k [] where
  held := by rintro o t ⟨d, h⟩; cases h
  nodup := List.nodup_nil
  covered := by rintro t ⟨d, h⟩; cases h
  bounded := by intro t h; cases h

/-- The kernel has not taken the resource of the acting object away. -/
def Undropped (gone : κ → Nat → Prop) (s : State ι κ C R Γ W D) : Action ι R D M E → Prop
  | .method o _ _ => ∀ w ∈ s.objs o, ∀ t ∈ w.token, ¬ gone s.kernel t
  | .destroy o _ => ∀ w ∈ s.objs o, ∀ t ∈ w.token, ¬ gone s.kernel t
  | _ => True

omit [DecidableEq ι] [DecidableEq D] in
instance {gone : κ → Nat → Prop} [∀ k t, Decidable (gone k t)] (s : State ι κ C R Γ W D)
    (a : Action ι R D M E) : Decidable (Undropped gone s a) :=
  match a with
  | .method o _ _ => inferInstanceAs (Decidable (∀ w ∈ s.objs o, ∀ t ∈ w.token, ¬ gone s.kernel t))
  | .destroy o _ => inferInstanceAs (Decidable (∀ w ∈ s.objs o, ∀ t ∈ w.token, ¬ gone s.kernel t))
  | .default _ | .adopt .. | .moveConstruct .. | .assign .. | .release _ | .other _ => isTrue trivial

omit [DecidableEq ι] [DecidableEq D] in
/-- An object of a tidy class always acts on an intact resource, unless the kernel
took it away. -/
theorem Conserved.careful {s : State ι κ C R Γ W D} (h : Conserved K (s.view X) s.kernel s.log)
    {a : Action ι R D M E} (hundropped : Undropped gone s a) : Careful K gone s a := by
  have key : ∀ o, ∀ w ∈ s.objs o, (∀ t ∈ w.token, ¬ gone s.kernel t) →
      ∀ t ∈ w.token, Intact K gone s.kernel s.log t := by
    intro o w ho hgone t ht
    have hv : s.view X o = some (X.raw w.obj, some t) := by
      simp [State.view, Option.mem_def.mp ho, Option.mem_def.mp ht]
    exact h.intact ⟨_, hv⟩ (hgone t ht)
  cases a with
  | method o m r => exact fun w hw => key o w hw (hundropped w hw)
  | destroy o r => exact fun w hw => key o w hw (hundropped w hw)
  | _ => trivial

end Owners
