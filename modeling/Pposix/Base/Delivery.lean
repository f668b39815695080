-- SUMMARY: Histories of things put into a store and got out of it, and what it means that each is delivered exactly once.
import Mathlib.Data.List.Nodup
import Mathlib.Logic.Function.Basic

/-!
# Delivery

A history records what was put and what was got. It is exact for a store when every got
thing was put before, no put is got twice, and the puts that were not got are what the
store holds.
-/

namespace Delivery

variable {M : Type}

inductive Event (M : Type) where
  | put (m : M)
  | got (m : M)

/-- `src` names the put that each get took its thing from, and `pend` lists the puts that no
get took, with their positions. -/
structure Tracked (h : List (Event M)) (src : Nat → Nat) (pend : List (Nat × M)) : Prop where
  source : ∀ {i m}, h[i]? = some (.got m) → src i < i ∧ h[src i]? = some (.put m)
  once : ∀ {i j m m'}, h[i]? = some (.got m) → h[j]? = some (.got m') → src i = src j → i = j
  pending : ∀ {k m}, (k, m) ∈ pend ↔
    h[k]? = some (.put m) ∧ ∀ i m', h[i]? = some (.got m') → src i ≠ k
  distinct : pend.Nodup

/-- Every get took one earlier put, no two took the same, and the puts that are left are
the content of the store. -/
def Exact (h : List (Event M)) (store : List M) : Prop :=
  ∃ src pend, Tracked h src pend ∧ (pend.map Prod.snd).Perm store

/-! ## Histories that grow -/

variable {h : List (Event M)} {e x : Event M} {i : Nat}

/-- An event of a longer history is an old one or the new one. -/
theorem snoc_cases (hi : (h ++ [e])[i]? = some x) : h[i]? = some x ∨ (i = h.length ∧ e = x) := by
  rcases Nat.lt_or_ge i h.length with hlt | hge
  · rw [List.getElem?_append_left hlt] at hi
    exact .inl hi
  · rw [List.getElem?_append_right hge, List.getElem?_singleton] at hi
    split at hi
    · exact .inr ⟨by omega, Option.some.inj hi⟩
    · cases hi

theorem snoc_old (hi : h[i]? = some x) : (h ++ [e])[i]? = some x := by
  rw [List.getElem?_append_left (List.getElem?_eq_some_iff.mp hi).1]
  exact hi

theorem lt_of_old (hi : h[i]? = some x) : i < h.length := (List.getElem?_eq_some_iff.mp hi).1

theorem snoc_new : (h ++ [e])[h.length]? = some e := List.getElem?_concat_length

/-! ## Puts and gets -/

variable {m : M} {src : Nat → Nat} {pend pend₁ pend₂ : List (Nat × M)} {k : Nat}

/-- A put is pending until it is got. -/
theorem Tracked.put (ht : Tracked h src pend) (m : M) :
    Tracked (h ++ [.put m]) src (pend ++ [(h.length, m)]) where
  source := by
    intro i m' hi
    rcases snoc_cases hi with hi | ⟨-, ⟨⟩⟩
    exact ⟨(ht.source hi).1, snoc_old (ht.source hi).2⟩
  once := by
    intro i j m₁ m₂ hi hj hsrc
    rcases snoc_cases hi with hi | ⟨-, ⟨⟩⟩
    rcases snoc_cases hj with hj | ⟨-, ⟨⟩⟩
    exact ht.once hi hj hsrc
  pending := by
    intro k m'
    rw [List.mem_append, List.mem_singleton]
    constructor
    · rintro (hk | hk)
      · obtain ⟨hput, hfree⟩ := ht.pending.mp hk
        refine ⟨snoc_old hput, fun i m₁ hi => ?_⟩
        rcases snoc_cases hi with hi | ⟨-, ⟨⟩⟩
        exact hfree i m₁ hi
      · cases hk
        refine ⟨snoc_new, fun i m₁ hi => ?_⟩
        rcases snoc_cases hi with hi | ⟨-, ⟨⟩⟩
        exact Nat.ne_of_lt (Nat.lt_trans (ht.source hi).1 (lt_of_old hi))
    · rintro ⟨hput, hfree⟩
      rcases snoc_cases hput with hput | ⟨rfl, ⟨⟩⟩
      · exact .inl (ht.pending.mpr ⟨hput, fun i m₁ hi => hfree i m₁ (snoc_old hi)⟩)
      · exact .inr rfl
  distinct := by
    refine List.Nodup.append ht.distinct (List.nodup_singleton _) ?_
    intro p hp hnew
    obtain rfl := List.mem_singleton.mp hnew
    exact Nat.lt_irrefl _ (lt_of_old (ht.pending.mp hp).1)

/-- A get takes a pending put. -/
theorem Tracked.got (ht : Tracked h src (pend₁ ++ (k, m) :: pend₂)) :
    Tracked (h ++ [.got m]) (Function.update src h.length k) (pend₁ ++ pend₂) := by
  obtain ⟨hput, hfree⟩ := ht.pending.mp (List.mem_append_right pend₁ List.mem_cons_self)
  have hsrc : ∀ {i x}, h[i]? = some x → Function.update src h.length k i = src i :=
    fun hi => Function.update_of_ne (Nat.ne_of_lt (lt_of_old hi)) _ _
  have hdistinct := List.nodup_middle.mp ht.distinct
  have hmem : ∀ p, p ∈ pend₁ ++ pend₂ ↔ p ∈ pend₁ ++ (k, m) :: pend₂ ∧ p ≠ (k, m) := by
    intro p
    have hout := (List.nodup_cons.mp hdistinct).1
    constructor
    · refine fun hp => ⟨?_, fun heq => hout (heq ▸ hp)⟩
      exact (List.perm_middle.mem_iff).mpr (List.mem_cons_of_mem _ hp)
    · rintro ⟨hp, hne⟩
      exact ((List.mem_cons.mp (List.perm_middle.mem_iff.mp hp)).resolve_left hne)
  refine ⟨?_, ?_, ?_, (List.nodup_cons.mp hdistinct).2⟩
  · intro i m' hi
    rcases snoc_cases hi with hi | ⟨rfl, ⟨⟩⟩
    · rw [hsrc hi]
      exact ⟨(ht.source hi).1, snoc_old (ht.source hi).2⟩
    · rw [Function.update_self]
      exact ⟨lt_of_old hput, snoc_old hput⟩
  · intro i j m₁ m₂ hi hj heq
    rcases snoc_cases hi with hi | ⟨rfl, -⟩
    · rcases snoc_cases hj with hj | ⟨rfl, -⟩
      · rw [hsrc hi, hsrc hj] at heq
        exact ht.once hi hj heq
      · rw [hsrc hi, Function.update_self] at heq
        exact absurd heq (hfree i m₁ hi)
    · rcases snoc_cases hj with hj | ⟨rfl, -⟩
      · rw [hsrc hj, Function.update_self] at heq
        exact absurd heq.symm (hfree j m₂ hj)
      · rfl
  · intro k' m'
    rw [hmem, ht.pending]
    constructor
    · rintro ⟨⟨hput', hfree'⟩, hne⟩
      refine ⟨snoc_old hput', fun i m₁ hi => ?_⟩
      rcases snoc_cases hi with hi | ⟨rfl, -⟩
      · rw [hsrc hi]
        exact hfree' i m₁ hi
      · rw [Function.update_self]
        rintro rfl
        cases hput.symm.trans hput'
        exact hne rfl
    · rintro ⟨hput', hfree'⟩
      rcases snoc_cases hput' with hput' | ⟨-, ⟨⟩⟩
      refine ⟨⟨hput', fun i m₁ hi => ?_⟩, ?_⟩
      · rw [← hsrc hi]
        exact hfree' i m₁ (snoc_old hi)
      · rintro ⟨⟩
        exact hfree' h.length m snoc_new (Function.update_self ..)

/-! ## Exact histories -/

theorem exact_nil : Exact ([] : List (Event M)) [] :=
  ⟨id, [], ⟨by simp, by simp, by simp, List.nodup_nil⟩, List.Perm.nil⟩

/-- Only what the store holds matters, not the order. -/
theorem Exact.perm {store store' : List M} (he : Exact h store) (hp : store.Perm store') :
    Exact h store' := by
  obtain ⟨src, pend, ht, hstore⟩ := he
  exact ⟨src, pend, ht, hstore.trans hp⟩

/-- What the store holds was put. -/
theorem Exact.put_mem {store : List M} (he : Exact h store) (hm : m ∈ store) : .put m ∈ h := by
  obtain ⟨src, pend, ht, hstore⟩ := he
  obtain ⟨⟨k, m'⟩, hmem, rfl⟩ := List.mem_map.mp (hstore.mem_iff.mpr hm)
  exact List.mem_of_getElem? (ht.pending.mp hmem).1

theorem Exact.put {store : List M} (he : Exact h store) (m : M) :
    Exact (h ++ [.put m]) (m :: store) := by
  obtain ⟨src, pend, ht, hstore⟩ := he
  refine ⟨src, _, ht.put m, ?_⟩
  rw [List.map_append]
  exact List.perm_append_singleton m _ |>.trans (hstore.cons m)

theorem Exact.got {store : List M} (he : Exact h (m :: store)) :
    Exact (h ++ [.got m]) store := by
  obtain ⟨src, pend, ht, hstore⟩ := he
  obtain ⟨⟨k, m'⟩, hmem, heq⟩ := List.mem_map.mp (hstore.mem_iff.mpr List.mem_cons_self)
  obtain rfl : m' = m := heq
  obtain ⟨pend₁, pend₂, rfl⟩ := List.append_of_mem hmem
  refine ⟨_, _, ht.got, ?_⟩
  have hmiddle : ((pend₁ ++ (k, m') :: pend₂).map Prod.snd).Perm
      (m' :: (pend₁ ++ pend₂).map Prod.snd) := List.perm_middle.map Prod.snd
  exact (hmiddle.symm.trans hstore).cons_inv

end Delivery
