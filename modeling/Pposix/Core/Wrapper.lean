-- SUMMARY: Classes whose only member is a descriptor, their defaulted special members, and results that hold them.
import Pposix.Core.Descriptor

/-!
# Wrappers

`file`, `socket`, `epoll`, `mq` and `mmap` have one member, a descriptor. Their move
operations are defaulted and their destructor is the implicit one, so all three
work on the member.
-/

class Wrapper (W : Type) {D : outParam Type} (P : outParam (Policy D)) where
  member : W → Descriptor P
  ofMember : Descriptor P → W
  member_ofMember : ∀ d, member (ofMember d) = d

attribute [simp] Wrapper.member_ofMember

namespace Wrapper

variable {W D : Type} {P : Policy D} [Wrapper W P]

/-- The handle stored in the member. -/
def raw (w : W) : D := (member w).raw

/-- The default constructor: the member has a default initializer. -/
def default : W := ofMember .default

def ofRaw (d : D) : W := ofMember (.ofRaw d)

/-- `W(W &&) = default`. -/
def moveConstruct (other : W) : W × W :=
  let m := (member other).moveConstruct
  (ofMember m.1, ofMember m.2)

/-- `W &operator=(W &&) = default`, which returns the left operand itself. -/
def moveAssign (this other : W) : (W × W) × Exit :=
  let m := ((member this).moveAssign (member other)).1
  ((ofMember m.1, ofMember m.2), .returned)

def destroy (w : W) : Sys PUnit := (member w).destroy

@[simp] theorem raw_ofMember (d : Descriptor P) : raw (ofMember d : W) = d.raw := by
  unfold raw
  rw [member_ofMember]

@[simp] theorem raw_default : raw (default : W) = P.null := raw_ofMember _

@[simp] theorem raw_ofRaw (d : D) : raw (ofRaw d : W) = d := raw_ofMember _

@[simp] theorem raw_moveConstruct (w : W) :
    raw (moveConstruct w).1 = raw w ∧ raw (moveConstruct w).2 = P.null :=
  ⟨raw_ofMember _, raw_ofMember _⟩

@[simp] theorem moveConstruct_ofRaw (d : D) : (moveConstruct (ofRaw d : W)).1 = ofRaw d := by
  unfold moveConstruct ofRaw
  rw [member_ofMember]
  rfl

@[simp] theorem raw_moveAssign (v w : W) :
    raw (moveAssign v w).1.1 = raw w ∧ raw (moveAssign v w).1.2 = raw v :=
  ⟨raw_ofMember _, raw_ofMember _⟩

theorem destroy_apply (w : W) (e : Errno) :
    destroy w e = .call (P.call (raw w)) fun r => .done (⟨⟩, r.errno) :=
  Descriptor.destroy_apply ..

end Wrapper

/-- A descriptor can be held by a result like the classes built on it. -/
instance {D : Type} {P : Policy D} : Wrapper (Descriptor P) P where
  member := id
  ofMember := id
  member_ofMember _ := rfl

/-! ## Results that hold a wrapper -/

namespace Result

variable {W D : Type} {P : Policy D} [Wrapper W P]

/-- `return temporary;` in a function that returns `result<W>`: the result moves from
the temporary, which is destroyed at the end of the full expression. -/
def ofTemporary (tmp : W) : Sys (Result W) := do
  let (moved, tmp) := Wrapper.moveConstruct tmp
  Wrapper.destroy tmp
  return .ofValue moved

/-- The move constructor of the variant: the alternative stays, its value is moved. -/
def moveConstruct (other : Result W) : Result W × Result W :=
  match other with
  | .error ec => (.error ec, .error ec)
  | .value w => (.value (Wrapper.moveConstruct w).1, .value (Wrapper.moveConstruct w).2)

/-- `W{std::move(*result)}`: the new wrapper, and the result afterwards. -/
def moveOut (other : Result W) : Option (W × Result W) :=
  match other with
  | .error _ => none
  | .value w => some ((Wrapper.moveConstruct w).1, .value (Wrapper.moveConstruct w).2)

theorem ofTemporary_apply (tmp : W) (e : Errno) :
    ofTemporary tmp e = .call (P.call P.null) fun r =>
      .done (.value (Wrapper.moveConstruct tmp).1, r.errno) := by
  have hstep : ofTemporary tmp e = (Wrapper.destroy (Wrapper.moveConstruct tmp).2 e).bind
      fun x => .done (.value (Wrapper.moveConstruct tmp).1, x.2) := rfl
  rw [hstep, Wrapper.destroy_apply, (Wrapper.raw_moveConstruct tmp).2]
  rfl

end Result
