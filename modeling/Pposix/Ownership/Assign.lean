-- SUMMARY: Chains of move assignments: what they exchange, and why the body of the operator leaves them undefined.
import Pposix.Base.Custody
import Pposix.Files.File
import Pposix.Lnx.Epoll
import Pposix.Memory.Mman
import Pposix.Rt.Mqueue
import Pposix.Sockets.Socket

/-!
# Move assignment

`descriptor::operator=` swaps and has no `return`. The classes with a descriptor as
their member assign through it; in `mmap` there is one more class between the two. An
expression is undefined as soon as one body that it runs ends without the `return` it needs.
-/

namespace Assignment

variable {ι D O : Type}

/-- A move assignment: `*this` and `other` afterwards, and how the bodies that ran ended,
in the order in which they ended. -/
abbrev Operator (O : Type) := O → O → (O × O) × List Exit

/-- `descriptor::operator=`. -/
def ofDescriptor {P : Policy D} : Operator (Descriptor P) := fun this other =>
  let m := this.moveAssign other
  (m.1, [m.2])

/-- The defaulted operator of a class. It calls the operator of the member, then returns
`*this`. -/
def ofWrapper {W : Type} {P : Policy D} [Wrapper W P] : Operator W := fun this other =>
  let m := Wrapper.moveAssign this other
  (m.1, (ofDescriptor (Wrapper.member this) (Wrapper.member other)).2 ++ [m.2])

/-- `x₁ = (x₂ = (… = std::move(xₙ)))`. -/
inductive Chain (ι : Type) where
  | obj (x : ι)
  | assign (x : ι) (c : Chain ι)

namespace Chain

/-- The object that the expression refers to. -/
def head : Chain ι → ι
  | .obj x | .assign x _ => x

variable [DecidableEq ι]

/-- One assignment: the objects afterwards and the object that the value refers to, or
`none` where the behaviour is undefined. -/
def exchange (op : Operator O) (x : ι) (operand : (ι → O) × ι) : Option ((ι → O) × ι) :=
  let (objs, y) := operand
  let m := op (objs x) (objs y)
  if Exit.fellOff ∈ m.2 then none
  else some (Function.update (Function.update objs x m.1.1) y m.1.2, x)

/-- Evaluate the chain, from the right. -/
def eval (op : Operator O) (objs : ι → O) : Chain ι → Sys (Option ((ι → O) × ι))
  | .obj x => return some (objs, x)
  | .assign x c => do
    let operand ← c.eval op objs
    return operand.bind (exchange op x)

/-- Where the contents of an object are before the chain: the exchanges, from the right. -/
def exchanges : Chain ι → Equiv.Perm ι
  | .obj _ => Equiv.refl ι
  | .assign x c => (Equiv.swap x c.head).trans c.exchanges

/-- The chain makes no call, so it closes nothing, and leaves `errno` alone. It refers to
its left operand, and the contents are exchanged. -/
def Respectful (op : Operator O) (raw : O → D) (objs : ι → O) (c : Chain ι) : Prop :=
  ∀ e, (c.eval op objs e).Paths fun h r => h = [] ∧ r.2 = e ∧
    ∃ objs', r.1 = some (objs', c.head) ∧ raw ∘ objs' = (raw ∘ objs) ∘ c.exchanges

section

variable {op : Operator O} {raw : O → D}

/-- An assignment whose bodies return exchanges what the two objects hold. -/
theorem exchange_defined (hop : ∀ v w, raw (op v w).1.1 = raw w ∧ raw (op v w).1.2 = raw v)
    (hexits : ∀ v w, Exit.fellOff ∉ (op v w).2) (objs : ι → O) (x y : ι) :
    ∃ objs', exchange op x (objs, y) = some (objs', x) ∧
      raw ∘ objs' = (raw ∘ objs) ∘ Equiv.swap x y := by
  refine ⟨_, if_neg (hexits (objs x) (objs y)), ?_⟩
  obtain ⟨hx, hy⟩ := hop (objs x) (objs y)
  rw [Function.comp_update, Function.comp_update, hx, hy]
  exact update_update_eq_comp_swap (raw ∘ objs) x y

theorem eval_assign (objs : ι → O) (x : ι) (c : Chain ι) (e : Errno) :
    (Chain.assign x c).eval op objs e =
      (c.eval op objs e).bind fun r => .done (r.1.bind (exchange op x), r.2) := rfl

/-- The evaluation makes no call. -/
theorem eval_done (op : Operator O) (objs : ι → O) (c : Chain ι) (e : Errno) :
    ∃ r, c.eval op objs e = .done (r, e) := by
  induction c with
  | obj x => exact ⟨some (objs, x), rfl⟩
  | assign x c ih =>
    obtain ⟨r, hr⟩ := ih
    rw [eval_assign, hr]
    exact ⟨r.bind (exchange op x), rfl⟩

/-- Where every body returns, every chain is respectful. -/
theorem respectful_of_returned
    (hop : ∀ v w, raw (op v w).1.1 = raw w ∧ raw (op v w).1.2 = raw v)
    (hexits : ∀ v w, Exit.fellOff ∉ (op v w).2) (objs : ι → O) (c : Chain ι) :
    Respectful op raw objs c := by
  intro e
  induction c with
  | obj x => exact ⟨rfl, rfl, objs, rfl, rfl⟩
  | assign x c ih =>
    rw [eval_assign]
    refine Prog.Paths.bind ih fun h r hr => ?_
    obtain ⟨rfl, he, objs₁, hobjs₁, hraw₁⟩ := hr
    obtain ⟨objs', hobjs', hraw'⟩ := exchange_defined hop hexits objs₁ x c.head
    refine ⟨rfl, he, objs', ?_, ?_⟩
    · rw [hobjs₁]
      exact hobjs'
    · rw [hraw', hraw₁]
      rfl

/-- Where one body of the operator does not return, no assignment is defined. -/
theorem not_respectful_of_fellOff (hexits : ∀ v w, Exit.fellOff ∈ (op v w).2) (objs : ι → O)
    (x : ι) (c : Chain ι) : ¬ Respectful op raw objs (.assign x c) := by
  intro hc
  obtain ⟨operand, heval⟩ := eval_done op objs c 0
  have hnone : operand.bind (exchange op x) = none := by
    cases operand with
    | none => rfl
    | some operand => exact if_pos (hexits (operand.1 x) (operand.1 operand.2))
  have hpath := hc 0
  rw [eval_assign, heval] at hpath
  obtain ⟨-, -, objs', hdefined, -⟩ := hpath
  rw [hnone] at hdefined
  cases hdefined

end

end Chain

/-! ## The operators of the library -/

theorem fellOff_ofDescriptor {P : Policy D} (v w : Descriptor P) :
    Exit.fellOff ∈ (ofDescriptor v w).2 := List.mem_singleton_self _

section

variable {W : Type} {P : Policy D} [Wrapper W P]

theorem fellOff_ofWrapper (v w : W) : Exit.fellOff ∈ (ofWrapper v w).2 :=
  List.mem_append_left _ (fellOff_ofDescriptor _ _)

variable [DecidableEq ι]

/-- The `return` is all that is missing: an operator that does what this one does, and
whose bodies return, makes every chain respectful. -/
theorem respectful_of_return {op : Operator W} (hop : ∀ v w, (op v w).1 = (ofWrapper v w).1)
    (hexits : ∀ v w, Exit.fellOff ∉ (op v w).2) (objs : ι → W) (c : Chain ι) :
    c.Respectful op Wrapper.raw objs := by
  refine Chain.respectful_of_returned (fun v w => ?_) hexits objs c
  rw [hop v w]
  exact Wrapper.raw_moveAssign v w

/-- The chain is respectful for no objects of the class. -/
def NeverRespectful (W : Type) {P : Policy D} [Wrapper W P] (c : Chain ι) : Prop :=
  ∀ objs : ι → W, ¬ c.Respectful ofWrapper Wrapper.raw objs

theorem neverRespectful_assign (x : ι) (c : Chain ι) : NeverRespectful W (.assign x c) :=
  fun objs => Chain.not_respectful_of_fellOff fellOff_ofWrapper objs x c

end

/-- No chain with an assignment is respectful, for descriptors and for the six classes that
assign through one. -/
theorem assign_never_respectful {P : Policy D} [DecidableEq ι] (x : ι) (c : Chain ι) :
    (∀ objs : ι → Descriptor P,
      ¬ Chain.Respectful ofDescriptor Descriptor.raw objs (.assign x c)) ∧
    NeverRespectful File (.assign x c) ∧ NeverRespectful Socket (.assign x c) ∧
    NeverRespectful Mq (.assign x c) ∧ NeverRespectful Epoll (.assign x c) ∧
    NeverRespectful Mmap (.assign x c) ∧ NeverRespectful Shm (.assign x c) := by
  refine ⟨fun objs => ?_, ?_, ?_, ?_, ?_, ?_, ?_⟩
  · exact Chain.not_respectful_of_fellOff fellOff_ofDescriptor objs x c
  all_goals exact neverRespectful_assign x c

/-- `a = std::move(b)`, where `a` holds descriptor 3 and `b` descriptor 4. -/
theorem assign_of_two_undefined :
    ¬ Chain.Respectful ofDescriptor Descriptor.raw
      (fun o : Bool => (.ofRaw (if o then 4 else 3) : FileDescriptor))
      (.assign false (.obj true)) := by
  intro h
  obtain ⟨-, -, objs', hdefined, -⟩ := h 0
  cases hdefined

end Assignment
