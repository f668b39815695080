-- SUMMARY: `confstr` against a libc that writes into the caller's buffer: when the span that it returns holds what it says.
import Pposix.Base.Cells
import Pposix.Calls.Scopes
import Pposix.Views.Slices

/-!
# The buffer of `confstr`

`::confstr` returns the size of the whole value, and writes what fits. `confstr` makes a
span of that size over the caller's buffer, whatever the length of the buffer is.
-/

namespace Config

/-! ## libc -/

/-- A configuration value, without the NUL that ends it. The size of the whole is a `size_t`. -/
structure ConfValue where
  bytes : List UInt8
  fits : bytes.length + 1 < UInt64.size

/-- The size that is needed for the value and the NUL. -/
def ConfValue.needed (v : ConfValue) : Nat := v.bytes.length + 1

/-- What `::confstr` writes to a buffer of `len` bytes: as much of the value as fits, and a NUL. -/
def ConfValue.stored (v : ConfValue) (len : Nat) : List UInt8 := v.bytes.take (len - 1) ++ [0]

/-- What the addresses hold that were written. -/
abbrev Written := Ptr → Option UInt8

/-- The libc with these values, where a call leaves `noise` in `errno`. A name without a value
has the size zero. -/
def libc (values : Int → Option ConfValue) (noise : Errno) :
    Prog.Env Written Syscall Response := fun mem c =>
  match c with
  | .confstr name buf len =>
    match values name with
    | none => some (⟨0, noise, .nothing⟩, mem)
    | some v => some (⟨v.needed, noise, .nothing⟩,
        if buf = 0 ∨ len = 0 then mem
        else Cells.write mem buf ((v.stored len.toNat).map some))
  | _ => none

/-! ## The span -/

/-- The bytes of the value and its NUL, each of them written. -/
def ConfValue.cells (v : ConfValue) : List (Option UInt8) := (v.bytes ++ [0]).map some

/-- What is expected of a span that `confstr` returns: it lies in the buffer, the call wrote
all of it, and it holds the whole value if the buffer is as long as `confstr_length` says. -/
structure Sound (values : Int → Option ConfValue) (name : Int) (buffer : CharSpan)
    (span : CharSpan) (mem : Written) : Prop where
  within : View.Within 1 span buffer
  written : ∀ cell ∈ span.elems mem 1, cell.isSome = true
  complete : ∀ noise e length e' mem',
    Sys.exec (libc values noise) e mem (confstrLength name) = some ((.value length, e'), mem') →
    length ≤ buffer.length → ∀ v, values name = some v → span.elems mem 1 = v.cells

/-- Whatever span `confstr` returns against this libc is sound. -/
def ConfstrSound (values : Int → Option ConfValue) (noise : Errno) (name : Int)
    (buffer : CharSpan) (e : Errno) : Prop :=
  ∀ span e' mem,
    Sys.exec (libc values noise) e (fun _ => none) (confstr name buffer) =
      some ((.value span, e'), mem) →
    Sound values name buffer span mem

variable {values : Int → Option ConfValue} {noise e : Errno} {name : Int} {v : ConfValue}
  {p : Ptr} {len : SizeT}

/-! ## What a value fills -/

/-- A buffer with room for the value and the NUL gets both. -/
theorem stored_of_needed_le {len : Nat} (h : v.needed ≤ len) : v.stored len = v.bytes ++ [0] := by
  have hle : v.bytes.length ≤ len - 1 := Nat.le_sub_one_of_lt h
  simp only [ConfValue.stored, List.take_of_length_le hle]

theorem toNat_size_needed (v : ConfValue) :
    (Response.size ⟨v.needed, 0, .nothing⟩).toNat = v.needed := toNat_ofInt_natCast v.fits

/-! ## The call -/

/-- What `confstr` returns of a libc that leaves zero in `errno`, for a name with a value. -/
theorem exec_confstr (hv : values name = some v) :
    Sys.exec (libc values 0) e (fun _ => none) (confstr name (CharSpan.make p len)) =
      some ((.value (CharSpan.make p (Response.size ⟨v.needed, 0, .nothing⟩)), e),
        if p = 0 ∨ (CharSpan.make p len).length = 0 then fun _ => none
        else Cells.write (fun _ => none) p
          ((v.stored (CharSpan.make p len).length.toNat).map some)) := by
  unfold Sys.exec
  rw [confstr_apply]
  simp only [Prog.exec, libc, hv]
  rfl

theorem exec_confstr_none (hv : values name = none) :
    Sys.exec (libc values 0) e (fun _ => none) (confstr name (CharSpan.make p len)) =
      some ((.value (CharSpan.make p 0), e), fun _ => none) := by
  unfold Sys.exec
  rw [confstr_apply]
  simp only [Prog.exec, libc, hv]
  rfl

/-- With `errno` set, whatever the call returned becomes an error. -/
theorem confstrSound_of_noise (hnoise : noise ≠ 0) (buffer : CharSpan) :
    ConfstrSound values noise name buffer e := by
  intro span e' mem h
  unfold Sys.exec at h
  rw [confstr_apply] at h
  cases hv : values name <;> simp [Prog.exec, libc, hv, confstrOf, hnoise] at h

/-- What `confstr_length` returns is the size that is needed. -/
theorem confstrLength_needed {mem mem' : Written} {length : SizeT} {e' : Errno}
    (hv : values name = some v)
    (h : Sys.exec (libc values noise) e mem (confstrLength name) =
      some ((.value length, e'), mem')) : length.toNat = v.needed := by
  unfold Sys.exec at h
  rw [confstrLength_apply] at h
  simp only [Prog.exec, libc, hv, Option.bind_some, confstrOf] at h
  split at h
  · cases h
    exact toNat_size_needed v
  · cases h

/-- A span without elements is sound where no value fits the buffer. -/
theorem sound_of_length_zero {mem : Written} {buffer span : CharSpan}
    (hdata : span.data = buffer.data) (hlen : span.length = 0)
    (hshort : ∀ v, values name = some v → buffer.length.toNat < v.needed) :
    Sound values name buffer span mem where
  within := by
    rw [View.within_iff_of_data_eq hdata, hlen]
    exact Nat.zero_le _
  written := by
    simp [View.elems, hlen]
  complete := by
    intro noise e length e' mem' h hle v hv
    have hneeded := confstrLength_needed hv h
    have hlt := hshort v hv
    have hle' := UInt64.le_iff_toNat_le.mp hle
    omega

/-- The span over a buffer that is not null has the size of the value, not of the buffer. -/
theorem within_make_iff (hp : p ≠ 0) :
    View.Within 1 (CharSpan.make p (Response.size ⟨v.needed, 0, .nothing⟩)) (CharSpan.make p len) ↔
      v.needed ≤ len.toNat := by
  have hdata : (CharSpan.make p (Response.size ⟨v.needed, 0, .nothing⟩)).data =
      (CharSpan.make p len).data := rfl
  rw [View.within_iff_of_data_eq hdata]
  simp only [CharSpan.make, View.length_ofBuffer hp, toNat_size_needed]

/-- A span over a buffer with room for the whole value is sound. -/
theorem sound_of_needed_le (hp : p ≠ 0) (hv : values name = some v) (hle : v.needed ≤ len.toNat) :
    Sound values name (CharSpan.make p len)
      (CharSpan.make p (Response.size ⟨v.needed, 0, .nothing⟩))
      (Cells.write (fun _ => none) p ((v.stored len.toNat).map some)) := by
  have hread : (CharSpan.make p (Response.size ⟨v.needed, 0, .nothing⟩)).elems
      (Cells.write (fun _ => none) p ((v.stored len.toNat).map some)) 1 = v.cells := by
    simp only [View.elems, CharSpan.make, View.data_ofBuffer, View.length_ofBuffer hp,
      toNat_size_needed, stored_of_needed_le hle]
    have hlen : v.needed = ((v.bytes ++ [0]).map some).length := by simp [ConfValue.needed]
    rw [Cells.read_write _ _ _ (Nat.le_of_eq hlen), hlen, List.take_length]
    rfl
  refine ⟨?_, ?_, fun _ _ _ _ _ _ _ v' hv' => ?_⟩
  · exact (within_make_iff hp).mpr hle
  · rw [hread]
    intro cell hcell
    obtain ⟨b, -, rfl⟩ := List.mem_map.mp hcell
    rfl
  · rw [hread, Option.some.inj (hv.symm.trans hv')]

/-! ## The four kinds of call -/

/-- A null buffer makes a span without elements. -/
theorem confstrSound_null : ConfstrSound values 0 name (CharSpan.make 0 len) e := by
  intro span e' mem h
  have hspan : span.data = 0 ∧ span.length = 0 := by
    cases hv : values name with
    | none =>
      rw [exec_confstr_none hv] at h
      cases h
      exact ⟨rfl, rfl⟩
    | some v =>
      rw [exec_confstr hv] at h
      cases h
      exact ⟨rfl, rfl⟩
  exact sound_of_length_zero hspan.1 hspan.2 fun v _ => Nat.succ_pos v.bytes.length

/-- So does a name without a value. -/
theorem confstrSound_none (hv : values name = none) :
    ConfstrSound values 0 name (CharSpan.make p len) e := by
  intro span e' mem h
  rw [exec_confstr_none hv] at h
  cases h
  refine sound_of_length_zero rfl ?_ (by simp [hv])
  exact ite_self 0

theorem confstrSound_some_iff (hp : p ≠ 0) (hv : values name = some v) :
    ConfstrSound values 0 name (CharSpan.make p len) e ↔ v.needed ≤ len.toNat := by
  have hlength : (CharSpan.make p len).length = len := View.length_ofBuffer hp len
  constructor
  · exact fun h => (within_make_iff hp).mp (h _ _ _ (exec_confstr hv)).within
  · intro hle span e' mem h
    have hlen : len ≠ 0 := by
      rintro rfl
      exact absurd hle (Nat.not_succ_le_zero _)
    rw [exec_confstr hv, hlength, if_neg (not_or.mpr ⟨hp, hlen⟩)] at h
    cases h
    exact sound_of_needed_le hp hv hle

/-- `confstr` is sound exactly where it returns an error, or where the buffer is null or has
room for the whole value. -/
theorem confstrSound_iff (values : Int → Option ConfValue) (noise : Errno) (name : Int)
    (p : Ptr) (len : SizeT) (e : Errno) :
    ConfstrSound values noise name (CharSpan.make p len) e ↔
      noise ≠ 0 ∨ p = 0 ∨ ∀ v, values name = some v → v.needed ≤ len.toNat := by
  by_cases hnoise : noise = 0
  · subst hnoise
    rw [or_iff_right (by simp)]
    by_cases hp : p = 0
    · subst hp
      exact iff_of_true confstrSound_null (.inl rfl)
    · rw [or_iff_right hp]
      cases hv : values name with
      | none => exact iff_of_true (confstrSound_none hv) (by simp)
      | some v =>
        rw [confstrSound_some_iff hp hv]
        simp
  · exact iff_of_true (confstrSound_of_noise hnoise _) (.inl hnoise)

/-- A value of three bytes and a buffer of two: the span has four bytes. -/
theorem confstr_leaves_buffer :
    ¬ ConfstrSound (fun _ => some ⟨[47, 98, 105], by decide⟩) 0 0 (CharSpan.make 4096 2) 0 := by
  intro h
  have hfits := (confstrSound_some_iff (by decide) rfl).mp h
  exact absurd hfits (by decide)

end Config
