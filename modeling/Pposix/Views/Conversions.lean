-- SUMMARY: Views that programs build by construction, conversion and slicing, and when a null view has a length.
import Pposix.Base.Machine
import Pposix.Views.Slices
import Mathlib.Data.Set.Basic

/-!
# Views in a program

A program constructs views, converts them and slices them, in any order. Six of the
eight classes set the length of a null view to zero; `any_view` and `any_cview` do not.
-/

namespace Views

/-! ## The eight classes -/

inductive ViewClass where
  | anyView
  | anyCview
  | span (c : SpanClass)

/-- What converts one view to a view of another class. -/
inductive Conversion where
  | toAnyCview
  | asBytes
  | asWriteableBytes
  /-- The conversion of a span class to its const class. -/
  | toConst
  deriving DecidableEq

namespace ViewClass

/-- The size of what the length counts. -/
def size : ViewClass → Nat
  | .anyView | .anyCview => 1
  | .span c => c.size

/-- The constructor from a pointer and a length. -/
def make : ViewClass → Ptr → SizeT → View
  | .anyView, data, len | .anyCview, data, len => RawView.make data len
  | .span _, buffer, length => View.ofBuffer buffer length

/-- The class that a conversion makes, and what it does, where the class has it. -/
def convert : ViewClass → Conversion → Option (ViewClass × (View → View))
  | .anyView, .toAnyCview => some (.anyCview, RawView.toAnyCview)
  | .anyView, .asBytes | .anyCview, .asBytes => some (.span .byteCspan, RawView.asBytes)
  | .anyView, .asWriteableBytes => some (.span .byteSpan, RawView.asWriteableBytes)
  | .span c, .toConst => some (.span c.const, c.toConst)
  | _, _ => none

/-- The class as one of those that have `subspan`. -/
def spanClass : ViewClass → Option SpanClass
  | .span c => some c
  | .anyView | .anyCview => none

/-- The constructor sets the length of a null view to zero. -/
def normalises : ViewClass → Bool
  | .anyView | .anyCview => false
  | .span _ => true

end ViewClass

/-! ## Programs -/

/-- A view of a program, and the pair that the caller gave for the buffer it shows. -/
structure Tracked where
  cls : ViewClass
  view : View
  origin : View
  /-- The size of what the length of `origin` counts. -/
  unit : Nat

inductive Act where
  | construct (cls : ViewClass) (data : Ptr) (len : SizeT)
  | convert (i : Nat) (conv : Conversion)
  | slice (i : Nat) (offset count : SizeT)

/-- Each action adds a view to the ones there are. -/
def step (s : List Tracked) : Act → Option (List Tracked)
  | .construct cls data len => some (s ++ [⟨cls, cls.make data len, ⟨data, len⟩, cls.size⟩])
  | .convert i conv => do
    let t ← s[i]?
    let (cls, f) ← t.cls.convert conv
    return s ++ [{ t with cls := cls, view := f t.view }]
  | .slice i offset count => do
    let t ← s[i]?
    let c ← t.cls.spanClass
    return s ++ [{ t with view := c.subspan t.view offset count }]

/-- The addresses of the elements of a view. -/
def bytes (size : Nat) (v : View) : Set Ptr :=
  {q | v.data ≤ q ∧ q < v.data + size * v.length.toNat}

/-- What is expected of every view. -/
structure Regular (t : Tracked) : Prop where
  /-- A view with null data has length zero. -/
  normal : t.view.Normal
  /-- What the view shows can be read when the caller's buffer can, or is null. -/
  readable : ∀ readable : Set Ptr, bytes t.unit t.origin ⊆ readable ∨ t.origin.data = 0 →
    bytes t.cls.size t.view ⊆ readable
  /-- A conversion keeps the pointer and the number of bytes. -/
  kept : ∀ conv cls f, t.cls.convert conv = some (cls, f) →
    (f t.view).data = t.view.data ∧
    cls.size * (f t.view).length.toNat = t.cls.size * t.view.length.toNat
  /-- The routes from `any_view` to `byte_cspan` give the same view. -/
  routes : t.cls = .anyView →
    ByteSpan.toByteCspan (RawView.asWriteableBytes t.view) = RawView.asBytes t.view ∧
    RawView.asBytes (RawView.toAnyCview t.view) = RawView.asBytes t.view ∧
    (RawView.asBytes t.view).length = t.view.length ∧
    (RawView.asBytes t.view).empty = t.view.empty

/-- Not the construction of an `any_view` or `any_cview` from a null pointer and a
length other than zero. -/
def NormalArguments (_ : List Tracked) : Act → Prop
  | .construct cls data len => cls.normalises ∨ data ≠ 0 ∨ len = 0
  | _ => True

/-! ## One view -/

variable {t : Tracked}

theorem bytes_of_length {size : Nat} {v : View} (h : v.length = 0) : bytes size v = ∅ := by
  ext q
  simp [bytes, h]

/-- A slice shows a part of what the view shows. -/
theorem bytes_subspan (size : Nat) (v : View) (offset count : SizeT) :
    bytes size (v.subspan size offset count) ⊆ bytes size v := by
  unfold View.subspan
  split
  · rw [bytes_of_length rfl]
    exact Set.empty_subset _
  · rename_i htest
    have hfit := not_not.mp (mt View.subspan_refuses_iff.mpr htest)
    obtain ⟨hlow, hhigh⟩ := Cells.part_bounds v.data size hfit.2
    unfold View.ofBuffer
    split
    · exact fun q hq => ⟨Int.le_trans hlow hq.1, Int.lt_of_lt_of_le hq.2 hhigh⟩
    · rw [bytes_of_length rfl]
      exact Set.empty_subset _

/-- A conversion of a normal view changes nothing but the class. -/
theorem ViewClass.convert_normal {c cls : ViewClass} {conv : Conversion} {f : View → View}
    {v : View} (hv : v.Normal) (h : c.convert conv = some (cls, f)) :
    f v = v ∧ cls.size = c.size := by
  cases c with
  | anyView =>
    cases conv <;> cases h
    · exact ⟨rfl, rfl⟩
    · exact ⟨hv.ofBuffer_self, rfl⟩
    · exact ⟨hv.ofBuffer_self, rfl⟩
  | anyCview =>
    cases conv <;> cases h
    exact ⟨hv.ofBuffer_self, rfl⟩
  | span c =>
    cases conv <;> cases h
    exact ⟨c.toConst_of_normal hv, c.size_const⟩

/-- The other properties follow from the first two. -/
theorem Regular.of_normal (hnormal : t.view.Normal)
    (hreadable : ∀ readable : Set Ptr, bytes t.unit t.origin ⊆ readable ∨ t.origin.data = 0 →
      bytes t.cls.size t.view ⊆ readable) : Regular t where
  normal := hnormal
  readable := hreadable
  kept := by
    intro conv cls f h
    obtain ⟨hview, hsize⟩ := ViewClass.convert_normal hnormal h
    rw [hview, hsize]
    exact ⟨rfl, rfl⟩
  routes := by
    intro _
    have hself : View.ofBuffer t.view.data t.view.length = t.view := hnormal.ofBuffer_self
    simp only [RawView.asBytes, RawView.asWriteableBytes, RawView.toAnyCview, RawView.make,
      ByteSpan.toByteCspan, ByteSpan.make, ByteCspan.make, hself, and_self]

/-! ## The operations -/

theorem regular_construct (cls : ViewClass) {data : Ptr} {len : SizeT}
    (h : cls.normalises ∨ data ≠ 0 ∨ len = 0) :
    Regular ⟨cls, cls.make data len, ⟨data, len⟩, cls.size⟩ := by
  have hmake : cls.make data len = View.ofBuffer data len := by
    cases cls with
    | span c => rfl
    | _ =>
      have hargs : View.Normal ⟨data, len⟩ := by
        intro hnull
        simpa [ViewClass.normalises, show data = 0 from hnull] using h
      exact hargs.ofBuffer_self.symm
  refine Regular.of_normal ?_ fun readable horigin => ?_
  · rw [hmake]
    exact View.normal_ofBuffer data len
  · simp only [hmake, View.ofBuffer]
    split
    · rename_i hdata
      exact horigin.resolve_right hdata
    · rw [bytes_of_length rfl]
      exact Set.empty_subset _

theorem Regular.convert (h : Regular t) {conv : Conversion} {cls : ViewClass} {f : View → View}
    (hc : t.cls.convert conv = some (cls, f)) :
    Regular { t with cls := cls, view := f t.view } := by
  obtain ⟨hview, hsize⟩ := ViewClass.convert_normal h.normal hc
  rw [hview]
  refine Regular.of_normal h.normal fun readable horigin => ?_
  rw [hsize]
  exact h.readable readable horigin

theorem ViewClass.size_of_spanClass {cls : ViewClass} {c : SpanClass}
    (h : cls.spanClass = some c) : cls.size = c.size := by
  cases cls <;> cases h
  rfl

theorem Regular.slice (h : Regular t) {c : SpanClass} (hc : t.cls.spanClass = some c)
    (offset count : SizeT) : Regular { t with view := c.subspan t.view offset count } := by
  have hsize := ViewClass.size_of_spanClass hc
  rw [c.subspan_eq, ← hsize]
  refine Regular.of_normal (View.normal_subspan _ _ _ _) fun readable horigin => ?_
  exact (bytes_subspan ..).trans (h.readable readable horigin)

/-! ## Runs -/

theorem step_regular {s s' : List Tracked} {a : Act} (hs : ∀ t ∈ s, Regular t)
    (hG : NormalArguments s a) (h : step s a = some s') : ∀ t ∈ s', Regular t := by
  -- Each action adds one view.
  have hadd : ∀ {new : Tracked}, Regular new → some (s ++ [new]) = some s' →
      ∀ t ∈ s', Regular t := by
    intro new hnew heq t ht
    cases heq
    rcases List.mem_append.mp ht with hold | hlast
    · exact hs t hold
    · exact List.mem_singleton.mp hlast ▸ hnew
  cases a with
  | construct cls data len => exact hadd (regular_construct cls hG) h
  | convert i conv =>
    obtain ⟨t, ht, h⟩ := Option.bind_eq_some_iff.mp h
    obtain ⟨⟨cls, f⟩, hc, h⟩ := Option.bind_eq_some_iff.mp h
    exact hadd ((hs t (List.mem_of_getElem? ht)).convert hc) h
  | slice i offset count =>
    obtain ⟨t, ht, h⟩ := Option.bind_eq_some_iff.mp h
    obtain ⟨c, hc, h⟩ := Option.bind_eq_some_iff.mp h
    exact hadd ((hs t (List.mem_of_getElem? ht)).slice hc offset count) h

/-- A construction that is not normal makes a view that is not. -/
theorem step_bad {s s' : List Tracked} {a : Act} (h : step s a = some s')
    (hs' : ∀ t ∈ s', Regular t) : NormalArguments s a := by
  cases a with
  | construct cls data len =>
    cases h
    have hnew := (hs' _ (List.mem_append_right s (List.mem_singleton_self _))).normal
    cases cls with
    | span c => exact .inl rfl
    | _ => exact .inr (Decidable.not_or_of_imp hnew)
  | _ => exact trivial

/-- The views of a program are regular throughout exactly when it constructs no `any_view`
or `any_cview` from a null pointer and a length other than zero. -/
theorem regular_iff_normal_arguments (as : List Act) :
    Machine.Always step (fun s => ∀ t ∈ s, Regular t) [] as ↔
      Machine.Guarded step NormalArguments [] as :=
  Machine.always_iff_guarded id step_regular (fun _ => step_bad) (by simp)

/-- `any_view{nullptr, 5}`: the view is null and its bytes are none. -/
theorem null_any_view_has_length :
    ¬ Machine.Always step (fun s => ∀ t ∈ s, Regular t) [] [.construct .anyView 0 5] := by
  intro h
  have hnew := (h.2 _ rfl).head _ (List.mem_singleton_self _)
  exact absurd (hnew.normal rfl) (by decide)

end Views
