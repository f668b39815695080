-- SUMMARY: `util.hpp`: sets of enumeration constants, and what their membership test tells.
import Mathlib.Tactic.Common

/-!
# Flag sets

`enum_flag<Enum, Flags>` is a type for each mask. A constant of the enumeration is a mask
too: it may have one bit, several or none. `has` asks whether the two masks have a bit in
common.
-/

/-- `enum_flag<Enum, Flags>`, for an enumeration with an underlying type of `w` bits. -/
structure EnumFlag (w : Nat) where
  flags : BitVec w
  deriving DecidableEq, Repr

namespace EnumFlag

variable {w : Nat}

/-- `has(Enum)`. -/
def has (this : EnumFlag w) (value : BitVec w) : Bool := this.flags &&& value != 0

/-- `has(enum_flag<Enum, Constant>)`. -/
def hasFlag (this constant : EnumFlag w) : Bool := this.flags &&& constant.flags != 0

/-- `operator|`. -/
def or (lhs rhs : EnumFlag w) : EnumFlag w := ⟨lhs.flags ||| rhs.flags⟩

/-- The constants `cs`, joined with `operator|`. -/
def join {E : Type} (underlying : E → BitVec w) (cs : List E) : EnumFlag w :=
  cs.foldr (fun c fs => or ⟨underlying c⟩ fs) ⟨0⟩

variable {F G : EnumFlag w} {C : BitVec w}

@[simp] theorem hasFlag_mk : F.hasFlag ⟨C⟩ = F.has C := rfl

/-! ## Bits -/

/-- The test is for a common bit. -/
theorem has_iff : F.has C = true ↔ ∃ i, F.flags.getLsbD i = true ∧ C.getLsbD i = true := by
  simp only [has, bne_iff_ne]
  constructor
  · intro hne
    have hbit := BitVec.getLsbD_true_ctz_of_ne_zero hne
    rw [BitVec.getLsbD_and, Bool.and_eq_true] at hbit
    exact ⟨_, hbit⟩
  · rintro ⟨i, hF, hC⟩ hzero
    have hbit : (F.flags &&& C).getLsbD i = true := by
      rw [BitVec.getLsbD_and, hF, hC]
      rfl
    rw [hzero] at hbit
    simp at hbit

theorem and_eq_iff_bits {x c : BitVec w} :
    x &&& c = c ↔ ∀ i, c.getLsbD i = true → x.getLsbD i = true := by
  constructor
  · intro h i hi
    rw [← h, BitVec.getLsbD_and, Bool.and_eq_true] at hi
    exact hi.1
  · intro h
    apply BitVec.eq_of_getLsbD_eq
    intro i _
    rw [BitVec.getLsbD_and]
    cases hi : c.getLsbD i with
    | false => exact Bool.and_false _
    | true => rw [h i hi, Bool.true_and]

theorem has_or : (F.or G).has C = (F.has C || G.has C) := by
  rw [Bool.eq_iff_iff, Bool.or_eq_true, has_iff, has_iff, has_iff, ← exists_or]
  simp only [or, BitVec.getLsbD_or, Bool.or_eq_true, or_and_right]

/-- A join has what one of its constants has. -/
theorem has_join {E : Type} (underlying : E → BitVec w) (cs : List E) :
    (join underlying cs).has C = true ↔ ∃ c ∈ cs, (EnumFlag.mk (underlying c)).has C = true := by
  induction cs with
  | nil => simp [join, has]
  | cons c cs ih =>
    have hcons : join underlying (c :: cs) = or ⟨underlying c⟩ (join underlying cs) := rfl
    rw [hcons, has_or, Bool.or_eq_true, ih]
    simp only [List.mem_cons, or_and_right, exists_or, exists_eq_left]

/-- A join has nothing that none of the constants has. -/
theorem join_has_eq_false {E : Type} {underlying : E → BitVec w}
    (hC : ∀ c, (EnumFlag.mk (underlying c)).has C = false) (cs : List E) :
    (join underlying cs).has C = false := by
  rw [Bool.eq_false_iff]
  intro h
  obtain ⟨c, -, hc⟩ := (has_join _ _).mp h
  rw [hC] at hc
  cases hc

/-- Flags that are joined to a mask leave it as it is where they have no bit. -/
theorem or_and_of_has_eq_false {m : BitVec w} (h : F.has C = false) :
    (m ||| F.flags) &&& C = m &&& C := by
  have hnone : F.flags &&& C = 0#w := by simpa [has] using h
  rw [BitVec.and_comm, BitVec.and_or_distrib_left, BitVec.and_comm C F.flags, hnone,
    BitVec.or_zero, BitVec.and_comm]

/-- A mask meets itself unless it is zero. -/
theorem has_self_iff : (EnumFlag.mk C).has C = true ↔ C ≠ 0 := by
  simp [has]

theorem twoPow_ne_zero {i : Nat} (hi : i < w) : BitVec.twoPow w i ≠ 0 := by
  intro hzero
  have hbit : (BitVec.twoPow w i).getLsbD i = true := by simp [hi]
  rw [hzero] at hbit
  simp at hbit

/-! ## The laws of membership -/

/-- What membership should satisfy for the sets `F` and `G` and the constant `C`. -/
structure Laws (F G : EnumFlag w) (C : BitVec w) : Prop where
  /-- `F | G` has the constant if `F` or `G` has it. -/
  union : F.has C = true ∨ G.has C = true → (F.or G).has C = true
  /-- `F | C` has it. -/
  put : (F.or ⟨C⟩).has C = true
  /-- If `F` has it, every bit of it is set in `F`. -/
  sound : F.has C = true → ∀ i, C.getLsbD i = true → F.flags.getLsbD i = true
  overloads : F.hasFlag ⟨C⟩ = F.has C

theorem laws_iff (F G : EnumFlag w) (C : BitVec w) :
    Laws F G C ↔ C ≠ 0 ∧ (F.flags &&& C = 0 ∨ F.flags &&& C = C) := by
  constructor
  · intro h
    refine ⟨?_, ?_⟩
    · rintro rfl
      simpa [has] using h.put
    · rw [and_eq_iff_bits]
      by_cases hF : F.has C = true
      · exact .inr (h.sound hF)
      · exact .inl (by simpa [has] using hF)
  · rintro ⟨hC, hF⟩
    refine ⟨?_, ?_, ?_, rfl⟩
    · rw [has_or, Bool.or_eq_true]
      exact id
    · rw [has_or, has_self_iff.mpr hC, Bool.or_true]
    · intro hhas
      have hne : F.flags &&& C ≠ 0 := by simpa [has] using hhas
      exact and_eq_iff_bits.mp (hF.resolve_left hne)

/-- The laws hold of a constant in every set exactly when it has one bit. -/
theorem forall_laws_iff (C : BitVec w) :
    (∀ F G, Laws F G C) ↔ ∃ i < w, C = BitVec.twoPow w i := by
  constructor
  · intro h
    have hC : C ≠ 0 := ((laws_iff ⟨0⟩ ⟨0⟩ C).mp (h _ _)).1
    -- A bit of the constant, and the set that has this bit only.
    have hbit := BitVec.getLsbD_true_ctz_of_ne_zero hC
    have hlt := BitVec.lt_of_getLsbD hbit
    refine ⟨_, hlt, ?_⟩
    have hone := ((laws_iff ⟨BitVec.twoPow w C.ctz.toNat⟩ ⟨0⟩ C).mp (h _ _)).2
    rw [BitVec.twoPow_and, if_pos hbit] at hone
    rcases hone with hzero | hone
    · exact absurd hzero (twoPow_ne_zero hlt)
    · exact hone.symm
  · rintro ⟨i, hi, rfl⟩ F G
    rw [laws_iff, BitVec.and_twoPow]
    refine ⟨twoPow_ne_zero hi, ?_⟩
    split
    · exact .inr rfl
    · exact .inl rfl

/-! ## Constants that a test tells apart -/

/-- The test for the constant `c` finds it in a join exactly when it was put in. -/
def SeesExactly {E : Type} (underlying : E → BitVec w) (c : E) : Prop :=
  ∀ cs : List E, (join underlying cs).has (underlying c) = true ↔ c ∈ cs

/-- It is enough to look at the constants one by one. -/
theorem seesExactly_iff {E : Type} (underlying : E → BitVec w) (c : E) :
    SeesExactly underlying c ↔
      ∀ c', (EnumFlag.mk (underlying c')).has (underlying c) = true ↔ c' = c := by
  constructor
  · intro h c'
    have hone := h [c']
    rw [has_join] at hone
    simp only [List.mem_singleton, exists_eq_left] at hone
    exact hone.trans eq_comm
  · intro h cs
    rw [has_join]
    simp only [h, exists_eq_right]

/-- A guard that refuses the constant lets the joins through where it was not put in. -/
theorem SeesExactly.refused_iff {E : Type} {underlying : E → BitVec w} {c : E}
    (h : SeesExactly underlying c) (cs : List E) :
    (!(join underlying cs).hasFlag ⟨underlying c⟩) = true ↔ c ∉ cs := by
  rw [Bool.not_eq_true', ← Bool.not_eq_true, hasFlag_mk, h cs]

end EnumFlag
