-- SUMMARY: Stores that give out what ranks highest, and what was put first among equals.
import Mathlib.Data.List.Perm.Basic
import Mathlib.Data.List.TakeWhile
import Mathlib.Order.Lattice
import Pposix.Base.Delivery

/-!
# First out

An ordered store keeps its things by rank, and by the time of the put where ranks are
equal. A get takes the first one, so no get passes over a put that was waiting and should
have left before.
-/

namespace Delivery

variable {M R : Type} [LinearOrder R] {rank : M → R}

/-- The first put leaves before the second: it ranks higher, or as high and is older. -/
def Before (rank : M → R) (x y : Nat × M) : Prop :=
  rank y.2 ≤ rank x.2 ∧ (rank y.2 = rank x.2 → x.1 < y.1)

/-- A get took its thing before every put that had not been got by then. -/
def FirstOut (rank : M → R) (h : List (Event M)) (src : Nat → Nat) : Prop :=
  ∀ i m k m', h[i]? = some (.got m) → h[k]? = some (.put m') → k < i →
    (∀ j m'', j ≤ i → h[j]? = some (.got m'') → src j ≠ k) → Before rank (src i, m) (k, m')

/-- Every get took an earlier put, no two took the same, the puts that are left are the
content of the store in the order in which they leave, and no get passed one over. -/
def Ordered (rank : M → R) (h : List (Event M)) (store : List M) : Prop :=
  ∃ src pend, Tracked h src pend ∧ pend.map Prod.snd = store ∧ pend.Pairwise (Before rank) ∧
    FirstOut rank h src

variable {h : List (Event M)} {m : M} {store front back : List M} {src : Nat → Nat}
  {pend pend' : List (Nat × M)}

/-! ## What is pending -/

/-- The order in which the pending puts are listed does not matter. -/
theorem Tracked.perm (ht : Tracked h src pend) (hp : pend.Perm pend') : Tracked h src pend' where
  source := ht.source
  once := ht.once
  pending := by
    intro k m
    apply hp.mem_iff.symm.trans
    exact ht.pending
  distinct := hp.nodup ht.distinct

theorem Tracked.lt_length (ht : Tracked h src pend) {x : Nat × M} (hx : x ∈ pend) :
    x.1 < h.length :=
  lt_of_old (ht.pending.mp hx).1

/-- An ordered store is an exact one. -/
theorem Ordered.exact (ho : Ordered rank h store) : Exact h store := by
  obtain ⟨src, pend, ht, hstore, -, -⟩ := ho
  exact ⟨src, pend, ht, List.Perm.of_eq hstore⟩

/-- The ranks in the store go down. -/
theorem Ordered.sorted (ho : Ordered rank h store) :
    store.Pairwise fun x y => rank y ≤ rank x := by
  obtain ⟨src, pend, -, hstore, hpend, -⟩ := ho
  subst hstore
  apply List.pairwise_map.mpr
  exact hpend.imp fun hbefore => hbefore.1

/-! ## Histories that grow -/

theorem FirstOut.put (hf : FirstOut rank h src) (m : M) : FirstOut rank (h ++ [.put m]) src := by
  intro i m₁ k m₂ hi hk hlt hfree
  cases snoc_cases hi with
  | inr hnew => cases hnew.2
  | inl hi =>
    cases snoc_cases hk with
    | inr hnew => exact absurd (lt_of_old hi) (by have := hnew.1; omega)
    | inl hk =>
      apply hf i m₁ k m₂ hi hk hlt
      intro j m₃ hj hgot
      exact hfree j m₃ hj (snoc_old hgot)

/-- A get of the first pending put passes none over. -/
theorem FirstOut.got {k : Nat} (hf : FirstOut rank h src) (ht : Tracked h src ((k, m) :: pend))
    (hpend : ((k, m) :: pend).Pairwise (Before rank)) :
    FirstOut rank (h ++ [.got m]) (Function.update src h.length k) := by
  intro i m₁ k' m₂ hi hk hlt hfree
  have hold : ∀ {j}, j < h.length → Function.update src h.length k j = src j :=
    fun hj => Function.update_of_ne (Nat.ne_of_lt hj) _ _
  cases snoc_cases hk with
  | inr hnew => cases hnew.2
  | inl hk =>
    cases snoc_cases hi with
    | inl hi =>
      rw [hold (lt_of_old hi)]
      apply hf i m₁ k' m₂ hi hk hlt
      intro j m₃ hj hgot
      rw [← hold (lt_of_old hgot)]
      exact hfree j m₃ hj (snoc_old hgot)
    | inr hnew =>
      obtain ⟨rfl, heq⟩ := hnew
      cases heq
      rw [Function.update_self]
      have hne : k ≠ k' := by
        have hself := hfree h.length m (Nat.le_refl _) snoc_new
        rwa [Function.update_self] at hself
      have hwaiting : (k', m₂) ∈ (k, m) :: pend := by
        apply ht.pending.mpr
        refine ⟨hk, fun j m₃ hgot => ?_⟩
        rw [← hold (lt_of_old hgot)]
        exact hfree j m₃ (Nat.le_of_lt (lt_of_old hgot)) (snoc_old hgot)
      cases List.mem_cons.mp hwaiting with
      | inl hsame => cases hsame; exact absurd rfl hne
      | inr hrest => exact List.rel_of_pairwise_cons hpend hrest

/-! ## Ordered stores -/

theorem ordered_nil : Ordered rank [] [] :=
  ⟨id, [], ⟨by simp, by simp, by simp, List.nodup_nil⟩, rfl, List.Pairwise.nil, by simp [FirstOut]⟩

/-- A put goes behind what ranks as high and before what ranks lower. -/
theorem Ordered.put (ho : Ordered rank h (front ++ back)) (hfront : ∀ x ∈ front, rank m ≤ rank x)
    (hback : ∀ x ∈ back, rank x < rank m) :
    Ordered rank (h ++ [.put m]) (front ++ m :: back) := by
  obtain ⟨src, pend, ht, hstore, hpend, hf⟩ := ho
  obtain ⟨pf, pb, rfl, rfl, rfl⟩ := List.map_eq_append_iff.mp hstore
  have hparts := List.pairwise_append.mp hpend
  have hmiddle : (pf ++ pb ++ [(h.length, m)]).Perm (pf ++ (h.length, m) :: pb) := by
    apply (List.perm_append_singleton _ _).trans
    exact List.perm_middle.symm
  refine ⟨src, _, (ht.put m).perm hmiddle, by simp, ?_, hf.put m⟩
  apply List.pairwise_append.mpr
  refine ⟨hparts.1, List.pairwise_cons.mpr ⟨?_, hparts.2.1⟩, ?_⟩
  · intro y hy
    have hlt := hback y.2 (List.mem_map_of_mem hy)
    exact ⟨le_of_lt hlt, fun heq => absurd heq (ne_of_lt hlt)⟩
  · intro x hx y hy
    cases List.mem_cons.mp hy with
    | inr hold => exact hparts.2.2 x hx y hold
    | inl hnew =>
      subst hnew
      have hindex := ht.lt_length (List.mem_append_left pb hx)
      exact ⟨hfront x.2 (List.mem_map_of_mem hx), fun _ => hindex⟩

/-- Behind the things of a rank as high there are only lower ones. -/
theorem lt_of_mem_dropWhile (m : M) :
    ∀ {q : List M}, q.Pairwise (fun x y => rank y ≤ rank x) →
      ∀ x ∈ q.dropWhile (rank m ≤ rank ·), rank x < rank m := by
  intro q
  induction q with
  | nil => exact fun _ x hx => by cases hx
  | cons y q ih =>
    intro hq x hx
    simp only [List.dropWhile_cons, decide_eq_true_eq] at hx
    split at hx
    · exact ih hq.of_cons x hx
    · rename_i hlower
      cases List.mem_cons.mp hx with
      | inl hhead => exact hhead ▸ lt_of_not_ge hlower
      | inr htail => exact lt_of_le_of_lt (List.rel_of_pairwise_cons hq htail) (lt_of_not_ge hlower)

theorem Ordered.insert (ho : Ordered rank h store) (m : M) :
    Ordered rank (h ++ [.put m])
      (store.takeWhile (rank m ≤ rank ·) ++ m :: store.dropWhile (rank m ≤ rank ·)) := by
  have hparts : Ordered rank h
      (store.takeWhile (rank m ≤ rank ·) ++ store.dropWhile (rank m ≤ rank ·)) := by
    rw [List.takeWhile_append_dropWhile]
    exact ho
  apply hparts.put
  · intro x hx
    have hrank := List.mem_takeWhile_imp hx
    exact of_decide_eq_true hrank
  · exact lt_of_mem_dropWhile m ho.sorted

/-- A get takes what the store holds first. -/
theorem Ordered.got (ho : Ordered rank h (m :: store)) : Ordered rank (h ++ [.got m]) store := by
  obtain ⟨src, pend, ht, hstore, hpend, hf⟩ := ho
  obtain ⟨⟨k, m'⟩, rest, rfl, hm, rfl⟩ := List.map_eq_cons_iff.mp hstore
  subst hm
  have hgot : Tracked h src ([] ++ (k, m') :: rest) := ht
  exact ⟨_, rest, hgot.got, rfl, hpend.of_cons, hf.got ht hpend⟩

end Delivery
