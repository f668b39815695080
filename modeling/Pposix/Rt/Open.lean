-- SUMMARY: The overloads of `mq::open` against a kernel with POSIX semantics: which calls are well formed, and which create.
import Pposix.Ownership.Factories
import Mathlib.Logic.Function.Basic

/-!
# Opening message queues

`::mq_open` reads a permission mode and the attributes of the new queue after the flags
when `O_CREAT` is among them. The overloads of `mq::open` pass the attributes alone, and
set `O_CREAT` only if the caller's mask has it.
-/

namespace Mq

/-- `O_CREAT` is among the flags. -/
def HasCreate (flags : Word) : Prop := (EnumFlag.mk flags).has MqOption.create.underlying = true

/-- `O_EXCL` is among the flags. -/
def HasExcl (flags : Word) : Prop := (EnumFlag.mk flags).has MqOption.excl.underlying = true

instance (flags : Word) : Decidable (HasCreate flags) := inferInstanceAs (Decidable (_ = _))

instance (flags : Word) : Decidable (HasExcl flags) := inferInstanceAs (Decidable (_ = _))

/-! ## The kernel -/

/-- The queues by name, and the queues that the descriptors refer to. -/
structure Queues where
  attrs : String → Option MqAttr
  descs : Nat → Option String

namespace Queues

/-- No descriptor is negative. -/
def desc (s : Queues) : Int → Option String
  | .ofNat fd => s.descs fd
  | .negSucc _ => none

/-- The queue under a name gets these attributes. -/
def create (s : Queues) (name : String) (maxmsg msgsize : Int) : Queues :=
  { s with attrs := Function.update s.attrs name (some { maxmsg := maxmsg, msgsize := msgsize }) }

/-- The descriptor refers to the queue. -/
def refer (s : Queues) (fd : Nat) (name : String) : Queues :=
  { s with descs := Function.update s.descs fd (some name) }

/-- `ENOENT`, `EBADF` and `EEXIST`. -/
def enoent : Errno := 2
def ebadf : Errno := 9
def eexist : Errno := 17

/-- The kernel that gives out the descriptor `fd`, permits every creation, and leaves
`noise` in `errno` when it succeeds. A call with `O_CREAT` that lacks the two arguments
has no answer. -/
def kernel (fd : Nat) (noise : Errno) : Prog.Env Queues Syscall Response := fun s c =>
  match c with
  | .mqOpen name flags args =>
    if HasCreate flags then
      match args with
      | [.mode _, .attr maxmsg msgsize] =>
        match s.attrs name with
        | none => some (⟨fd, noise, .nothing⟩, (s.create name maxmsg msgsize).refer fd name)
        | some _ =>
          if HasExcl flags then some (⟨-1, eexist, .nothing⟩, s)
          else some (⟨fd, noise, .nothing⟩, s.refer fd name)
      | _ => none
    else
      match s.attrs name with
      | none => some (⟨-1, enoent, .nothing⟩, s)
      | some _ => some (⟨fd, noise, .nothing⟩, s.refer fd name)
  | .mqGetattr mqd =>
    match (s.desc mqd).bind s.attrs with
    | none => some (⟨-1, ebadf, .nothing⟩, s)
    | some attr => some (⟨0, noise, .mqAttr attr⟩, s)
  | .mqClose (.ofNat fd) =>
    if s.descs fd = none then some (⟨-1, ebadf, .nothing⟩, s)
    else some (⟨0, noise, .nothing⟩, { s with descs := Function.update s.descs fd none })
  | .mqClose (.negSucc _) => some (⟨-1, ebadf, .nothing⟩, s)
  | _ => none

end Queues

/-! ## What is expected -/

/-- `O_EXCL` comes with `O_CREAT`, and `O_CREAT` with a mode and attributes. -/
structure WellFormed (flags : Word) (args : List MqOpenArg) : Prop where
  excl : HasExcl flags → HasCreate flags
  create : HasCreate flags → ∃ mode maxmsg msgsize, args = [.mode mode, .attr maxmsg msgsize]

/-- Every call of `::mq_open` that the program makes is well formed. -/
def CallsWellFormed {α : Type} (p : Prog Syscall Response α) : Prop :=
  p.Paths fun h _ => ∀ q ∈ h, ∀ name flags args, q.1 = .mqOpen name flags args →
    WellFormed flags args

/-- Where the name is free, the program opens a queue with these attributes, and `getattr`
reports them. -/
def Creates (name : String) (maxmsg msgsize : Int) (p : Sys (Result Mq)) : Prop :=
  ∀ (s : Queues) fd noise e, s.attrs name = none → s.descs fd = none →
    ∃ q e' s', Sys.exec (Queues.kernel fd noise) e s p = some ((.value q, e'), s') ∧
      ∃ attr e'' s'',
        Sys.exec (Queues.kernel fd noise) e' s' q.getattr = some ((.value attr, e''), s'') ∧
        attr.maxMessageCount = maxmsg ∧ attr.maxMessageSize = msgsize

/-- A call of an overload of `open`, with what its static assertion says. -/
inductive Opening where
  | open_ (mode : MqMode)
  | option (mode : MqMode) (flag : EnumFlag 32) (assertion : flag ≠ ⟨MqOption.excl.underlying⟩)
  | create (mode : MqMode) (maxMessageCount maxMessageSize : Int)
  | optionCreate (mode : MqMode) (flags : EnumFlag 32) (maxMessageCount maxMessageSize : Int)

namespace Opening

def run (name : String) : Opening → Sys (Result Mq)
  | .open_ mode => Mq.open_ name mode
  | .option mode flag assertion => openOption name mode flag assertion
  | .create mode count size => openCreate name mode (.make count size)
  | .optionCreate mode flags count size => openOptionCreate name mode flags (.make count size)

/-- The mask that the caller gives. -/
def mask : Opening → Word
  | .open_ _ | .create .. => 0
  | .option _ flag _ => flag.flags
  | .optionCreate _ flags _ _ => flags.flags

/-- The queue that the call should create. -/
def queue : Opening → Option (Int × Int)
  | .open_ _ | .option .. => none
  | .create _ count size | .optionCreate _ _ count size => some (count, size)

/-- The calls are well formed, and the overloads with an `mq_create_queue` create. -/
def Correct (name : String) (o : Opening) : Prop :=
  (∀ e, CallsWellFormed (o.run name e)) ∧
    ∀ count size, o.queue = some (count, size) → Creates name count size (o.run name)

end Opening

/-! ## Flags -/

/-- No access mode has a bit of an option. -/
theorem has_mode_or (mode : MqMode) (flags : Word) (option : MqOption) :
    (EnumFlag.mk (mode.underlying ||| flags)).has option.underlying =
      (EnumFlag.mk flags).has option.underlying := by
  have hmode : (EnumFlag.mk mode.underlying).has option.underlying = false := by
    cases mode <;> cases option <;> decide
  have hor := EnumFlag.has_or (F := ⟨mode.underlying⟩) (G := ⟨flags⟩) (C := option.underlying)
  rw [hmode, Bool.false_or] at hor
  exact hor

theorem hasCreate_mode_or (mode : MqMode) (flags : Word) :
    HasCreate (mode.underlying ||| flags) ↔ HasCreate flags :=
  iff_of_eq (congrArg (· = true) (has_mode_or mode flags .create))

theorem hasExcl_mode_or (mode : MqMode) (flags : Word) :
    HasExcl (mode.underlying ||| flags) ↔ HasExcl flags :=
  iff_of_eq (congrArg (· = true) (has_mode_or mode flags .excl))

/-! ## The calls -/

/-- The destructor of the temporary is the only other call. -/
theorem callsWellFormed_opened_iff (name : String) (flags : Word) (args : List MqOpenArg)
    (e : Errno) :
    CallsWellFormed (opened (.mqOpen name flags args) e) ↔ WellFormed flags args := by
  rw [opened_apply]
  constructor
  · intro h
    exact h ⟨-1, 0, .nothing⟩ _ (List.mem_singleton_self _) name flags args rfl
  · intro hargs r
    dsimp only
    split
    · intro q hq name' flags' args' hopen
      obtain rfl := List.mem_singleton.mp hq
      cases hopen
      exact hargs
    · refine (destroyEmpties_paths mqPolicy _ 1 r.errno).mono fun h x hx => ?_
      intro q hq name' flags' args' hopen
      rcases List.mem_cons.mp hq with rfl | hq
      · cases hopen
        exact hargs
      · rw [hx.2.2 q hq] at hopen
        cases hopen

/-- Without the arguments, a call is well formed when it needs none. -/
theorem wellFormed_nil_iff (flags : Word) :
    WellFormed flags [] ↔ ¬ HasCreate flags ∧ ¬ HasExcl flags := by
  constructor
  · intro h
    have hcreate : ¬ HasCreate flags := by
      intro hcreate
      obtain ⟨_, _, _, hargs⟩ := h.create hcreate
      cases hargs
    exact ⟨hcreate, mt h.excl hcreate⟩
  · rintro ⟨hcreate, hexcl⟩
    exact ⟨fun h => absurd h hexcl, fun h => absurd h hcreate⟩

/-- The attributes alone are not the two arguments. -/
theorem not_hasCreate_of_wellFormed {flags : Word} {attr : MqOpenArg}
    (h : WellFormed flags [attr]) : ¬ HasCreate flags := by
  intro hcreate
  obtain ⟨_, _, _, hargs⟩ := h.create hcreate
  cases hargs

/-- Without `O_CREAT`, a name that is free stays free. -/
theorem not_creates {name : String} {flags : Word} {args : List MqOpenArg} {count size : Int}
    (hflags : ¬ HasCreate flags) :
    ¬ Creates name count size (opened (.mqOpen name flags args)) := by
  intro h
  obtain ⟨q, e', s', hopen, -⟩ := h ⟨fun _ => none, fun _ => none⟩ 0 0 0 rfl rfl
  unfold Sys.exec at hopen
  rw [opened_apply] at hopen
  simp [handOver, Prog.exec, Queues.kernel, hflags] at hopen

/-- `getattr` reports what the queue behind the descriptor has. -/
theorem exec_getattr {s : Queues} {fd : Nat} {noise e : Errno} {this : Mq} {attr : MqAttr}
    (hattr : (s.desc this.mqD.raw).bind s.attrs = some attr) :
    Sys.exec (Queues.kernel fd noise) e s this.getattr = some ((.value ⟨attr⟩, noise), s) := by
  have hcall : this.getattr e = .call (.mqGetattr this.mqD.raw) fun r =>
      .done (if r.ret = -1 then .error ⟨r.errno⟩ else .value ⟨r.mqAttr⟩, r.errno) :=
    translated_apply (fun r => MqCurrentAttr.mk r.mqAttr) _ e
  unfold Sys.exec
  rw [hcall]
  simp only [Prog.exec, Queues.kernel, hattr]
  rfl

/-- A call with `O_CREAT` and the two arguments creates the queue. -/
theorem creates_of_arguments {name : String} {flags mode : Word} {count size : Int}
    (hflags : HasCreate flags) :
    Creates name count size (opened (.mqOpen name flags [.mode mode, .attr count size])) := by
  intro s fd noise e hname hfd
  have hfd' : ¬ (fd : Int) = -1 := by omega
  let s' : Queues := (s.create name count size).refer fd name
  have hattr : (s'.desc fd).bind s'.attrs = some { maxmsg := count, msgsize := size } := by
    simp [s', Queues.desc, Queues.refer, Queues.create]
  refine ⟨Wrapper.ofRaw (fd : Int), Queues.ebadf, s', ?_, _, noise, s',
    exec_getattr hattr, rfl, rfl⟩
  unfold Sys.exec
  rw [opened_apply]
  simp only [handOver, Prog.exec, Queues.kernel, if_pos hflags, hname, Option.bind_some,
    if_neg hfd']
  rfl

/-! ## The overloads -/

/-- With the attributes alone, a call is not well formed or creates nothing. -/
theorem not_correct_of_attr {name : String} {flags : Word} {attr : MqOpenArg} {count size : Int}
    (hcalls : ∀ e, CallsWellFormed (opened (.mqOpen name flags [attr]) e)) :
    ¬ Creates name count size (opened (.mqOpen name flags [attr])) := by
  have hargs := (callsWellFormed_opened_iff name flags [attr] 0).mp (hcalls 0)
  exact not_creates (not_hasCreate_of_wellFormed hargs)

/-- An overload is correct exactly when it takes no `mq_create_queue` and its mask has
neither `O_CREAT` nor `O_EXCL`. -/
theorem Opening.correct_iff (name : String) (o : Opening) :
    o.Correct name ↔ o.queue = none ∧ ¬ HasCreate o.mask ∧ ¬ HasExcl o.mask := by
  cases o with
  | open_ mode =>
    have hmask : ¬ HasCreate 0 ∧ ¬ HasExcl 0 := by decide
    refine iff_of_true ⟨fun e => ?_, ?_⟩ ⟨rfl, hmask⟩
    · refine (callsWellFormed_opened_iff ..).mpr ((wellFormed_nil_iff _).mpr ?_)
      cases mode <;> decide
    · rintro _ _ ⟨⟩
  | option mode flag assertion =>
    have hcalls : ∀ e, CallsWellFormed (openOption name mode flag assertion e) ↔
        ¬ HasCreate flag.flags ∧ ¬ HasExcl flag.flags := by
      intro e
      refine (callsWellFormed_opened_iff ..).trans ?_
      rw [wellFormed_nil_iff, hasCreate_mode_or, hasExcl_mode_or]
    constructor
    · exact fun h => ⟨rfl, (hcalls 0).mp (h.1 0)⟩
    · rintro ⟨-, hflags⟩
      refine ⟨fun e => (hcalls e).mpr hflags, ?_⟩
      rintro _ _ ⟨⟩
  | create mode count size =>
    refine iff_of_false (fun h => ?_) (by rintro ⟨⟨⟩, -⟩)
    exact not_correct_of_attr h.1 (h.2 count size rfl)
  | optionCreate mode flags count size =>
    refine iff_of_false (fun h => ?_) (by rintro ⟨⟨⟩, -⟩)
    exact not_correct_of_attr h.1 (h.2 count size rfl)

/-- `open(name, read_write, mq_create_queue{10, 64})` creates nothing. -/
theorem open_create_finds_nothing :
    ¬ Opening.Correct "/q" (.create .readWrite 10 64) :=
  fun h => not_creates (by decide) (h.2 10 64 rfl)

end Mq
