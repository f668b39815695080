-- SUMMARY: Pools of objects that each own at most one resource of a kernel: classes, kernels, and the machine that runs them.
import Pposix.Base.Custody
import Pposix.Base.Machine
import Pposix.Base.Program
import Mathlib.Logic.Function.Basic

/-!
# Owner classes

An owner class is a class whose objects hold the handle of a resource, or a null
handle. Its methods are programs that call a kernel. The machine below runs any
number of such objects against a kernel model, interleaved with the steps of other
parties.

Handles are reused, so a handle does not say which resource its object acquired.
The machine therefore gives each resource a token and carries the token along with
the contents of the object. No method sees a token.
-/

namespace Owners

/-! ## Classes -/

/-- A program with globals `Γ` that calls the kernel. -/
abbrev Method (C R Γ α : Type) := StateT Γ (Prog C R) α

/-- At most one call was made, and it was made on the handle `d`. -/
def OnlyOn {C R D : Type} (touches : C → Option D) (d : D) (h : List (C × R)) : Prop :=
  h.length ≤ 1 ∧ ∀ p ∈ h, touches p.1 = some d

/-- A class of objects `W` that hold handles `D` and have the methods `M`. -/
structure Class (C R Γ W D M : Type) where
  /-- The handle of an object that owns nothing. -/
  null : D
  /-- The handle an object holds. -/
  raw : W → D
  /-- The handle a call acts on. -/
  touches : C → Option D
  /-- Default construction. -/
  empty : W
  /-- Construction from a handle. -/
  adopt : D → W
  /-- Move construction: the new object, and the source afterwards. -/
  moveConstruct : W → W × W
  /-- Move assignment: both operands afterwards. -/
  assign : W → W → W × W
  /-- Giving the handle to the caller, where the class can do that. -/
  release : Option (W → D × W)
  method : M → W → Method C R Γ W
  destroy : W → Method C R Γ PUnit
  raw_empty : raw empty = null
  raw_adopt : ∀ d, raw (adopt d) = d
  raw_moveConstruct : ∀ w, raw (moveConstruct w).1 = raw w ∧ raw (moveConstruct w).2 = null
  raw_assign : ∀ v w, raw (assign v w).1 = raw w ∧ raw (assign v w).2 = raw v
  raw_release : ∀ f ∈ release, ∀ w, (f w).1 = raw w ∧ raw (f w).2 = null
  method_paths : ∀ m w g, (method m w g).Paths fun h x =>
    OnlyOn touches (raw w) h ∧ (raw x.1 = raw w ∨ raw x.1 = null)
  destroy_paths : ∀ w g, (destroy w g).Paths fun h _ => OnlyOn touches (raw w) h

/-! ## Kernels -/

/-- A kernel model with states `κ`. Other parties take the steps `E`. -/
structure Kernel (κ C R D E : Type) where
  /-- The token of the next resource. -/
  fresh : κ → Nat
  /-- A new resource with this handle, for an object. -/
  issue : κ → D → Option κ
  /-- The state after this answer to this call, where the kernel may give it. -/
  answer : κ → C → R → Option κ
  /-- The caller of `release` takes the resource over. -/
  release : κ → Nat → κ
  other : κ → E → Option κ
  /-- This answer to this call ends the resource the call acts on. -/
  ends : C → R → Bool

/-! ## The log -/

/-- A kernel call that a method of an object made. -/
structure Call (κ C R D : Type) where
  /-- The resource that the object acquired. -/
  token : Option Nat
  /-- The handle the object held. -/
  raw : D
  /-- The kernel just before the call. -/
  before : κ
  call : C
  answer : R

inductive Entry (κ C R D : Type) where
  | adopted (t : Nat) (d : D)
  | called (e : Call κ C R D)
  | released (t : Option Nat) (d : D)
  /-- The object was destroyed and its resource lives on. -/
  | abandoned (t : Nat)

/-- How a resource can leave the objects. -/
inductive Fate where
  | closed
  | released
  | abandoned
  deriving DecidableEq, Repr

section Log

variable {κ C R D E : Type}

def Entry.call? : Entry κ C R D → Option (Call κ C R D)
  | .called e => some e
  | _ => none

/-- The calls in the log, oldest first. -/
def calls (log : List (Entry κ C R D)) : List (Call κ C R D) :=
  log.filterMap Entry.call?

/-- The call ended the resource its object acquired, or another one under the same handle. -/
def Kernel.Ends (K : Kernel κ C R D E) (e : Call κ C R D) : Prop :=
  K.ends e.call e.answer = true

instance (K : Kernel κ C R D E) (e : Call κ C R D) : Decidable (K.Ends e) :=
  inferInstanceAs (Decidable (_ = _))

/-- The token an entry takes away from the objects, and how. -/
def Kernel.ending (K : Kernel κ C R D E) : Entry κ C R D → Option (Nat × Fate)
  | .adopted .. => none
  | .called e => if K.Ends e then e.token.map (·, .closed) else none
  | .released t _ => t.map (·, .released)
  | .abandoned t => some (t, .abandoned)

def Kernel.endings (K : Kernel κ C R D E) (log : List (Entry κ C R D)) : List (Nat × Fate) :=
  log.filterMap K.ending

/-- The tokens that left the objects. -/
def Kernel.leavers (K : Kernel κ C R D E) (log : List (Entry κ C R D)) : List Nat :=
  (K.endings log).map Prod.fst

/-- The resource of a destroyed object lives on unless the destructor, or a
method before it, ended it. -/
def Kernel.bury (K : Kernel κ C R D E) (t : Option Nat) (log : List (Entry κ C R D)) :
    List (Entry κ C R D) :=
  match t with
  | none => log
  | some t => if t ∈ K.leavers log then log else log ++ [.abandoned t]

theorem mem_calls {log : List (Entry κ C R D)} {e : Call κ C R D} :
    e ∈ calls log ↔ .called e ∈ log := by
  constructor
  · intro he
    obtain ⟨x, hx, hxe⟩ := List.mem_filterMap.mp he
    cases x with
    | called e' =>
      cases hxe
      exact hx
    | adopted t d => cases hxe
    | released t d => cases hxe
    | abandoned t => cases hxe
  · exact fun he => List.mem_filterMap.mpr ⟨_, he, rfl⟩

theorem mem_calls_called {log : List (Entry κ C R D)} {e e' : Call κ C R D} :
    e ∈ calls (log ++ [.called e']) ↔ e ∈ calls log ∨ e = e' := by
  simp [mem_calls]

@[simp] theorem calls_append (l₁ l₂ : List (Entry κ C R D)) :
    calls (l₁ ++ l₂) = calls l₁ ++ calls l₂ :=
  List.filterMap_append ..

@[simp] theorem calls_called (e : Call κ C R D) : calls [.called e] = [e] := rfl

@[simp] theorem calls_adopted (t : Nat) (d : D) :
    calls ([.adopted t d] : List (Entry κ C R D)) = [] := rfl

@[simp] theorem calls_released (t : Option Nat) (d : D) :
    calls ([.released t d] : List (Entry κ C R D)) = [] := rfl

@[simp] theorem calls_abandoned (t : Nat) :
    calls ([.abandoned t] : List (Entry κ C R D)) = [] := rfl

@[simp] theorem calls_bury (K : Kernel κ C R D E) (t : Option Nat) (log : List (Entry κ C R D)) :
    calls (K.bury t log) = calls log := by
  cases t with
  | none => rfl
  | some t =>
    by_cases ht : t ∈ K.leavers log <;> simp [Kernel.bury, ht]

@[simp] theorem Kernel.endings_append (K : Kernel κ C R D E) (l₁ l₂ : List (Entry κ C R D)) :
    K.endings (l₁ ++ l₂) = K.endings l₁ ++ K.endings l₂ :=
  List.filterMap_append ..

end Log

/-! ## The machine -/

/-- An object with the token of the resource its contents stem from. -/
structure Slot (W : Type) where
  obj : W
  token : Option Nat

structure State (ι κ C R Γ W D : Type) where
  /-- The live objects. -/
  objs : ι → Option (Slot W)
  globals : Γ
  kernel : κ
  log : List (Entry κ C R D)

/-- A step of the program, or of another party. Where a method calls the kernel,
the action says what the kernel answers. -/
inductive Action (ι R D M E : Type) where
  | default (o : ι)
  | adopt (o : ι) (d : D)
  | moveConstruct (o src : ι)
  | assign (a b : ι)
  | method (o : ι) (m : M) (r : R)
  | release (o : ι)
  | destroy (o : ι) (r : R)
  | other (e : E)

variable {ι κ C R E Γ W D M : Type}

/-- Before any object exists. -/
def State.init (k : κ) (g : Γ) : State ι κ C R Γ W D := ⟨fun _ => none, g, k, []⟩

/-- The kernel and the log while a method of an object runs. -/
structure Session (κ C R D : Type) where
  kernel : κ
  log : List (Entry κ C R D)

/-- The kernel answers `r`, and the log says on whose behalf the call was made. -/
def Kernel.env (K : Kernel κ C R D E) (t : Option Nat) (d : D) (r : R) :
    Prog.Env (Session κ C R D) C R := fun σ c =>
  (K.answer σ.kernel c r).map fun k => (r, ⟨k, σ.log ++ [.called ⟨t, d, σ.kernel, c, r⟩]⟩)

variable [DecidableEq ι] [DecidableEq D]

def step (X : Class C R Γ W D M) (K : Kernel κ C R D E) (s : State ι κ C R Γ W D) :
    Action ι R D M E → Option (State ι κ C R Γ W D)
  | .default o =>
    match s.objs o with
    | none => some { s with objs := Function.update s.objs o (some ⟨X.empty, none⟩) }
    | some _ => none
  | .adopt o d =>
    match s.objs o with
    | none => (K.issue s.kernel d).map fun k =>
        let t := K.fresh s.kernel
        { s with
          objs := Function.update s.objs o (some ⟨X.adopt d, some t⟩)
          kernel := k
          log := s.log ++ [.adopted t d] }
    | some _ => none
  | .moveConstruct o src =>
    match s.objs o, s.objs src with
    | none, some w =>
        let m := X.moveConstruct w.obj
        some { s with
          objs := Function.update (Function.update s.objs o (some ⟨m.1, w.token⟩))
            src (some ⟨m.2, none⟩) }
    | _, _ => none
  | .assign a b =>
    match s.objs a, s.objs b with
    | some v, some w =>
        let m := X.assign v.obj w.obj
        some { s with
          objs := Function.update (Function.update s.objs a (some ⟨m.1, w.token⟩))
            b (some ⟨m.2, v.token⟩) }
    | _, _ => none
  | .method o m r =>
    match s.objs o with
    | none => none
    | some w =>
        (Prog.exec (K.env w.token (X.raw w.obj) r) (X.method m w.obj s.globals)
          ⟨s.kernel, s.log⟩).map fun x =>
        { objs := Function.update s.objs o
            (some ⟨x.1.1, if X.raw x.1.1 = X.null then none else w.token⟩)
          globals := x.1.2
          kernel := x.2.kernel
          log := x.2.log }
  | .release o =>
    match X.release, s.objs o with
    | some f, some w =>
        let x := f w.obj
        some { s with
          objs := Function.update s.objs o (some ⟨x.2, none⟩)
          kernel := w.token.elim s.kernel (K.release s.kernel)
          log := s.log ++ [.released w.token x.1] }
    | _, _ => none
  | .destroy o r =>
    match s.objs o with
    | none => none
    | some w =>
        (Prog.exec (K.env w.token (X.raw w.obj) r) (X.destroy w.obj s.globals)
          ⟨s.kernel, s.log⟩).map fun x =>
        { objs := Function.update s.objs o none
          globals := x.1.2
          kernel := x.2.kernel
          log := K.bury w.token x.2.log }
  | .other e => (K.other s.kernel e).map fun k => { s with kernel := k }

end Owners
