-- SUMMARY: `span.hpp`, `byte_span.hpp`, `char_span.hpp` and `any_view.hpp`: pointer and length views.
import Pposix.Os.Syscall

/-!
# Views

The span classes share one representation: a pointer and a length. Their
constructors set the length to zero when the pointer is null. `any_view` and
`any_cview` take the length as it is given.
-/

/-- A pointer and a number of elements. -/
structure View where
  data : Ptr := 0
  length : SizeT := 0
  deriving DecidableEq, Repr

/-- The constructor of the span classes: `buffer ? length : 0u`. -/
def View.ofBuffer (buffer : Ptr) (length : SizeT) : View :=
  ⟨buffer, if buffer ≠ 0 then length else 0⟩

theorem View.data_ofBuffer (p : Ptr) (n : SizeT) : (ofBuffer p n).data = p := rfl

theorem View.length_ofBuffer {p : Ptr} (hp : p ≠ 0) (n : SizeT) : (ofBuffer p n).length = n :=
  if_pos hp

theorem View.length_ofBuffer_null (n : SizeT) : (ofBuffer 0 n).length = 0 := rfl

/-- `empty()`. -/
def View.empty (this : View) : Bool := this.length = 0

/-- `subspan`, for elements of `size` bytes. The second test is made only where the
first one fails. -/
def View.subspan (size : Nat) (this : View) (offset count : SizeT) : View :=
  if offset ≥ this.length ∨ this.length - offset < count then {}
  else .ofBuffer (this.data + size * offset.toNat) count

/-! ## The six span classes -/

abbrev Cspan := View
abbrev Span := View
abbrev ByteCspan := View
abbrev ByteSpan := View
abbrev CharCspan := View
abbrev CharSpan := View

def Cspan.subspan (size : Nat) (this : Cspan) (offset count : SizeT) : Cspan :=
  View.subspan size this offset count

def Span.subspan (size : Nat) (this : Span) (offset count : SizeT) : Span :=
  View.subspan size this offset count

def ByteCspan.make (buffer : Ptr) (length : SizeT) : ByteCspan := View.ofBuffer buffer length

def ByteCspan.subspan (this : ByteCspan) (offset count : SizeT) : ByteCspan :=
  View.subspan 1 this offset count

def ByteSpan.make (buffer : Ptr) (length : SizeT) : ByteSpan := View.ofBuffer buffer length

def ByteSpan.subspan (this : ByteSpan) (offset count : SizeT) : ByteSpan :=
  View.subspan 1 this offset count

def CharCspan.subspan (this : CharCspan) (offset count : SizeT) : CharCspan :=
  View.subspan 1 this offset count

def CharSpan.make (buffer : Ptr) (length : SizeT) : CharSpan := View.ofBuffer buffer length

def CharSpan.subspan (this : CharSpan) (offset count : SizeT) : CharSpan :=
  View.subspan 1 this offset count

/-- `operator cspan<T>()`. -/
def Span.toCspan (this : Span) : Cspan := View.ofBuffer this.data this.length

/-- `operator byte_cspan()`. -/
def ByteSpan.toByteCspan (this : ByteSpan) : ByteCspan := ByteCspan.make this.data this.length

/-- `operator char_cspan()`. -/
def CharSpan.toCharCspan (this : CharSpan) : CharCspan := View.ofBuffer this.data this.length

/-! ## `any_view` and `any_cview` -/

/-- A pointer of any type, and a length in bytes. -/
structure AnyView where
  data : Data
  length : SizeT
  deriving DecidableEq, Repr

abbrev AnyCview := AnyView

/-- `any_view{&object}`: the length is the size of the object. -/
def AnyView.ofObject (v : OptVal) : AnyView := ⟨.object v, v.size.toUInt64⟩

/-- An `any_view` or `any_cview` of memory of the caller. -/
abbrev RawView := View

namespace RawView

/-- The constructors from a pointer and a length, which is `sizeof(T)` for a `T *`. -/
def make (data : Ptr) (len : SizeT) : RawView := ⟨data, len⟩

/-- `operator any_cview()`. -/
def toAnyCview (this : RawView) : RawView := make this.data this.length

/-- `as_bytes()`, of both classes. -/
def asBytes (this : RawView) : ByteCspan := ByteCspan.make this.data this.length

/-- `as_writeable_bytes()`. -/
def asWriteableBytes (this : RawView) : ByteSpan := ByteSpan.make this.data this.length

end RawView
