-- SUMMARY: Slices of views: what `subspan` denotes in the six span classes, and how slices compose.
import Pposix.Base.Cells
import Pposix.Core.Span

/-!
# Slices

A view over a valid buffer denotes the list of its elements. `subspan` denotes the
part of the list that it is asked for, or nothing where that is not all there.
-/

namespace View

variable {β : Type}

/-- The elements, of `size` bytes each, that a view denotes. -/
def elems (mem : Ptr → β) (size : Nat) (v : View) : List β :=
  Cells.read mem size v.data v.length.toNat

/-- A null view has no elements. -/
def Normal (v : View) : Prop := v.data = 0 → v.length = 0

instance (v : View) : Decidable v.Normal := inferInstanceAs (Decidable (_ → _))

/-- The buffer is null and has no elements, or it lies in the address space. -/
structure Valid (size : Nat) (v : View) : Prop where
  null : v.Normal
  nonneg : 0 ≤ v.data
  fits : v.data + size * v.length.toNat ≤ UInt64.size

/-- Subtraction of lengths, where it does not wrap. -/
def checkedSub (a b : SizeT) : Option SizeT := if b ≤ a then some (a - b) else none

/-- The pointer to the element `offset`, where it leaves neither the buffer nor the address
space. -/
def checkedAdvance (size : Nat) (v : View) (offset : SizeT) : Option Ptr :=
  let p := v.data + size * offset.toNat
  if v.data ≤ p ∧ p ≤ v.data + size * v.length.toNat ∧ p ≤ UInt64.size then some p else none

/-- `subspan`, where no step of it wraps. -/
def checkedSubspan (size : Nat) (this : View) (offset count : SizeT) : Option View := do
  if offset ≥ this.length then return {}
  let rest ← checkedSub this.length offset
  if rest < count then return {}
  let buffer ← this.checkedAdvance size offset
  return .ofBuffer buffer count

/-- All of the view `r` lies in the buffer of `v`. -/
def Within (size : Nat) (r v : View) : Prop :=
  v.data ≤ r.data ∧ r.data + size * r.length.toNat ≤ v.data + size * v.length.toNat

variable {size : Nat} {v : View} {offset count : SizeT}

theorem normal_ofBuffer (p : Ptr) (n : SizeT) : (ofBuffer p n).Normal := by
  intro h
  obtain rfl : p = 0 := h
  exact length_ofBuffer_null n

theorem normal_subspan (v : View) (size : Nat) (offset count : SizeT) :
    (v.subspan size offset count).Normal := by
  unfold subspan
  split
  · exact fun _ => rfl
  · exact normal_ofBuffer _ _

/-- The constructors have nothing to do for a normal view. -/
theorem Normal.ofBuffer_self (hv : v.Normal) : ofBuffer v.data v.length = v := by
  unfold ofBuffer
  split
  · rfl
  · rename_i hnull
    have hlen := hv (Decidable.not_not.mp hnull)
    cases v
    simp_all

/-- The test of `subspan` is the comparison that it stands for. -/
theorem subspan_refuses_iff : (offset ≥ v.length ∨ v.length - offset < count) ↔
    ¬ (offset.toNat < v.length.toNat ∧ offset.toNat + count.toNat ≤ v.length.toNat) := by
  rw [ge_iff_le, UInt64.le_iff_toNat_le, UInt64.lt_iff_toNat_lt]
  by_cases hle : v.length.toNat ≤ offset.toNat
  · exact iff_of_true (.inl hle) (by omega)
  · have hsub := UInt64.toNat_sub_of_le v.length offset (UInt64.le_iff_toNat_le.mpr (by omega))
    rw [hsub]
    omega

/-- A slice that fits is the pointer and the length that it should be. -/
theorem Valid.subspan_eq (hv : v.Valid size) :
    v.subspan size offset count =
      if offset.toNat < v.length.toNat ∧ offset.toNat + count.toNat ≤ v.length.toNat then
        ⟨v.data + size * offset.toNat, count⟩
      else {} := by
  unfold subspan
  by_cases hfit : offset.toNat < v.length.toNat ∧ offset.toNat + count.toNat ≤ v.length.toNat
  · rw [if_neg (mt subspan_refuses_iff.mp (not_not.mpr hfit)), if_pos hfit]
    have hlen : v.length ≠ 0 := by
      rintro hzero
      simp [hzero] at hfit
    have hpos : 0 < v.data := Int.lt_iff_le_and_ne.mpr
      ⟨hv.nonneg, fun hnull => hlen (hv.null hnull.symm)⟩
    have hnew := Int.ne_of_gt (Int.lt_of_lt_of_le hpos (Cells.part_bounds v.data size hfit.2).1)
    simp only [ofBuffer, if_pos hnew]
  · rw [if_pos (subspan_refuses_iff.mpr hfit), if_neg hfit]

/-- A view of bytes that starts where another one does lies in it when it is not longer. -/
theorem within_iff_of_data_eq {r : View} (h : r.data = v.data) :
    Within 1 r v ↔ r.length.toNat ≤ v.length.toNat := by
  have hone : ∀ n : Nat, ((1 : Nat) : Int) * n = n := fun n => Int.one_mul n
  unfold Within
  rw [h, hone, hone, Int.add_le_add_iff_left, Int.ofNat_le]
  exact and_iff_right (Int.le_refl _)

@[simp] theorem elems_default (mem : Ptr → β) : elems mem size {} = [] := rfl

@[simp] theorem length_elems (mem : Ptr → β) : (v.elems mem size).length = v.length.toNat :=
  Cells.length_read ..

/-- A slice of a valid view is a valid view. -/
theorem Valid.subspan (hv : v.Valid size) : (v.subspan size offset count).Valid size := by
  refine ⟨normal_subspan _ _ _ _, ?_, ?_⟩ <;> rw [hv.subspan_eq] <;> split
  · rename_i hfit
    exact Int.le_trans hv.nonneg (Cells.part_bounds v.data size hfit.2).1
  · exact Int.le_refl 0
  · rename_i hfit
    exact Int.le_trans (Cells.part_bounds v.data size hfit.2).2 hv.fits
  · simp

/-- A slice that fits denotes its part of the elements. -/
theorem Valid.elems_subspan (hv : v.Valid size) (mem : Ptr → β)
    (hfit : offset.toNat + count.toNat ≤ v.length.toNat) :
    (v.subspan size offset count).elems mem size =
      ((v.elems mem size).drop offset.toNat).take count.toNat := by
  rw [hv.subspan_eq]
  split
  · exact (Cells.take_drop_read mem size v.data hfit).symm
  · -- An offset at the end leaves no room for an element.
    have hcount : count.toNat = 0 := by omega
    rw [hcount, List.take_zero, elems_default]

theorem Valid.length_subspan (hv : v.Valid size)
    (hfit : v.length.toNat < offset.toNat + count.toNat) :
    (v.subspan size offset count).length = 0 := by
  rw [hv.subspan_eq, if_neg (by omega)]

theorem Valid.subspan_within (hv : v.Valid size) (hdata : (v.subspan size offset count).data ≠ 0) :
    Within size (v.subspan size offset count) v := by
  rw [hv.subspan_eq] at hdata ⊢
  split
  · rename_i hfit
    exact Cells.part_bounds v.data size hfit.2
  · rename_i hfit
    rw [if_neg hfit] at hdata
    exact absurd rfl hdata

/-- The pointer to an element of the buffer does not leave it. -/
theorem Valid.checkedAdvance_eq (hv : v.Valid size) (hle : offset ≤ v.length) :
    v.checkedAdvance size offset = some (v.data + size * offset.toNat) := by
  have hlen : offset.toNat + 0 ≤ v.length.toNat := UInt64.le_iff_toNat_le.mp hle
  have hbounds := Cells.part_bounds v.data size hlen
  have hzero : (size : Int) * (0 : Nat) = 0 := Int.mul_zero _
  rw [hzero, Int.add_zero] at hbounds
  have hspace := Int.le_trans hbounds.2 hv.fits
  exact if_pos ⟨hbounds.1, hbounds.2, hspace⟩

/-- No step of `subspan` wraps. -/
theorem Valid.checkedSubspan_eq (hv : v.Valid size) (offset count : SizeT) :
    v.checkedSubspan size offset count = some (v.subspan size offset count) := by
  unfold checkedSubspan View.subspan
  by_cases hend : offset ≥ v.length
  · simp [hend]
  · have hle : offset ≤ v.length := by
      rw [UInt64.le_iff_toNat_le]
      rw [ge_iff_le, UInt64.le_iff_toNat_le] at hend
      omega
    by_cases hshort : v.length - offset < count
    · simp [hend, hshort, checkedSub, hle]
    · simp [hend, hshort, checkedSub, hle, hv.checkedAdvance_eq hle]

/-- A slice of a slice is a slice. -/
theorem Valid.elems_subspan_subspan (hv : v.Valid size) (mem : Ptr → β) {a b c d : SizeT}
    (hab : a.toNat + b.toNat ≤ v.length.toNat) (hcd : c.toNat + d.toNat ≤ b.toNat) :
    ((v.subspan size a b).subspan size c d).elems mem size =
      (v.subspan size (a + c) d).elems mem size := by
  have hsum : (a + c).toNat = a.toNat + c.toNat := by
    rw [UInt64.toNat_add]
    have hlt := v.length.toNat_lt
    omega
  have hlen : (v.subspan size a b).length.toNat = b.toNat := by
    rw [← length_elems mem, hv.elems_subspan mem hab]
    simp only [List.length_take, List.length_drop, length_elems]
    omega
  rw [hv.subspan.elems_subspan mem (by omega), hv.elems_subspan mem hab,
    hv.elems_subspan mem (by omega), List.drop_take, List.take_take, List.drop_drop, hsum]
  congr 1
  omega

/-- A view is what is before a cut and what is after it. -/
theorem Valid.elems_cut (hv : v.Valid size) (mem : Ptr → β) {k : SizeT} (hk : k ≤ v.length) :
    (v.subspan size 0 k).elems mem size ++ (v.subspan size k (v.length - k)).elems mem size =
      v.elems mem size := by
  have hle : k.toNat ≤ v.length.toNat := UInt64.le_iff_toNat_le.mp hk
  have hrest : (v.length - k).toNat = v.length.toNat - k.toNat := UInt64.toNat_sub_of_le _ _ hk
  rw [hv.elems_subspan mem (by simpa using hle), hv.elems_subspan mem (by omega), hrest]
  have htake : ((v.elems mem size).drop k.toNat).take (v.length.toNat - k.toNat) =
      (v.elems mem size).drop k.toNat := List.take_of_length_le (by simp)
  rw [htake]
  exact List.take_append_drop k.toNat _

end View

/-! ## The six classes -/

/-- `cspan` and `span` with the size of their elements, and the classes of bytes and
characters. -/
inductive SpanClass where
  | cspan (size : Nat)
  | span (size : Nat)
  | byteCspan
  | byteSpan
  | charCspan
  | charSpan

namespace SpanClass

/-- The size of an element. -/
def size : SpanClass → Nat
  | .cspan size | .span size => size
  | .byteCspan | .byteSpan | .charCspan | .charSpan => 1

def subspan : SpanClass → View → SizeT → SizeT → View
  | .cspan size => Cspan.subspan size
  | .span size => Span.subspan size
  | .byteCspan => ByteCspan.subspan
  | .byteSpan => ByteSpan.subspan
  | .charCspan => CharCspan.subspan
  | .charSpan => CharSpan.subspan

/-- The class of the const view. -/
def const : SpanClass → SpanClass
  | .cspan size | .span size => .cspan size
  | .byteCspan | .byteSpan => .byteCspan
  | .charCspan | .charSpan => .charCspan

/-- The conversion to the const view. -/
def toConst : SpanClass → View → View
  | .span _ => Span.toCspan
  | .byteSpan => ByteSpan.toByteCspan
  | .charSpan => CharSpan.toCharCspan
  | .cspan _ | .byteCspan | .charCspan => id

/-- The copies agree. -/
theorem subspan_eq (c : SpanClass) : c.subspan = View.subspan c.size := by
  cases c <;> rfl

@[simp] theorem size_const (c : SpanClass) : c.const.size = c.size := by
  cases c <;> rfl

/-- The conversion changes nothing in a view that a constructor made. -/
theorem toConst_of_normal (c : SpanClass) {v : View} (hv : v.Normal) : c.toConst v = v := by
  cases c with
  | span size => exact hv.ofBuffer_self
  | byteSpan => exact hv.ofBuffer_self
  | charSpan => exact hv.ofBuffer_self
  | _ => rfl

/-- `subspan` is exact slicing, in the six classes. -/
theorem slices_exact {β : Type} (c : SpanClass) (mem : Ptr → β) (s : View)
    (hs : s.Valid c.size) :
    (∀ offset count : SizeT,
      (if offset.toNat + count.toNat ≤ s.length.toNat then
        (c.subspan s offset count).elems mem c.size =
          ((s.elems mem c.size).drop offset.toNat).take count.toNat
      else (c.subspan s offset count).empty = true) ∧
      ((c.subspan s offset count).data ≠ 0 → View.Within c.size (c.subspan s offset count) s) ∧
      s.checkedSubspan c.size offset count = some (c.subspan s offset count)) ∧
    (∀ a b c' d : SizeT, a.toNat + b.toNat ≤ s.length.toNat → c'.toNat + d.toNat ≤ b.toNat →
      (c.subspan (c.subspan s a b) c' d).elems mem c.size =
        (c.subspan s (a + c') d).elems mem c.size) ∧
    (∀ k : SizeT, k ≤ s.length →
      (c.subspan s 0 k).elems mem c.size ++ (c.subspan s k (s.length - k)).elems mem c.size =
        s.elems mem c.size) ∧
    ∀ offset count : SizeT,
      c.toConst (c.subspan s offset count) = c.const.subspan (c.toConst s) offset count := by
  simp only [subspan_eq, size_const]
  refine ⟨fun offset count => ⟨?_, hs.subspan_within, hs.checkedSubspan_eq offset count⟩,
    fun a b c' d => hs.elems_subspan_subspan mem, fun k => hs.elems_cut mem, ?_⟩
  · split <;> rename_i hfit
    · exact hs.elems_subspan mem hfit
    · have hlen := hs.length_subspan (Nat.lt_of_not_le hfit)
      simp [View.empty, hlen]
  · intro offset count
    rw [c.toConst_of_normal hs.null, c.toConst_of_normal hs.subspan.null]

theorem slices_exact_sixteen_bytes :
    (ByteSpan.subspan ⟨4096, 16⟩ 2 3).elems id 1 = [4098, 4099, 4100] := by
  have hvalid : View.Valid 1 ⟨4096, 16⟩ := ⟨by decide, by decide, by decide⟩
  exact ((slices_exact .byteSpan id ⟨4096, 16⟩ hvalid).1 2 3).1

end SpanClass
