-- SUMMARY: Pools of files: when the descriptor of a file is closed at most once and never used after that.
import Pposix.Files.File
import Pposix.Os.Table
import Pposix.Owners.Exact

/-!
# Pools of files

`file` as an owner class over the table of descriptors. Its `close` leaves the number
in the member, so the destructor closes the number once more, whoever has it then.
-/

open Owners Os

inductive FileMethod where
  | close
  | lseek (offset : Int) (wh : FileSeek)
  | read (buffer : ByteSpan)
  | write (buffer : ByteCspan)

namespace FileMethod

/-- The method, with its result dropped. None of them changes the member. -/
def run : FileMethod → File → Sys File
  | .close, f => do
    let _ ← f.close
    return f
  | .lseek offset wh, f => do
    let _ ← f.lseek offset wh
    return f
  | .read buffer, f => do
    let _ ← f.read buffer
    return f
  | .write buffer, f => do
    let _ ← f.write buffer
    return f

def call : FileMethod → Int → Syscall
  | .close, fd => .close fd
  | .lseek offset wh, fd => .lseek fd offset wh.underlying
  | .read buffer, fd => .read fd buffer.data buffer.length
  | .write buffer, fd => .write fd buffer.data buffer.length

theorem run_apply (m : FileMethod) (f : File) (e : Errno) :
    m.run f e = .call (m.call f.fd.raw) fun r => .done (f, r.errno) := by
  -- What is left of a program when its result is dropped.
  have hdrop : ∀ {α : Type} (p : Sys α), (do let _ ← p; return f : Sys File) e =
      (p e).bind fun x => .done (f, x.2) := fun _ => rfl
  cases m with
  | close => exact (hdrop f.close).trans (congrArg (Prog.bind · _) (commonCall_apply ..))
  | lseek offset wh =>
    exact (hdrop (f.lseek offset wh)).trans (congrArg (Prog.bind · _) (commonResultCall_apply ..))
  | read buffer =>
    exact (hdrop (f.read buffer)).trans (congrArg (Prog.bind · _) (commonResultCall_apply ..))
  | write buffer =>
    exact (hdrop (f.write buffer)).trans (congrArg (Prog.bind · _) (commonResultCall_apply ..))

end FileMethod

/-- The descriptor that a call of a file works on. -/
def Syscall.fileFd : Syscall → Option Int
  | .close fd | .lseek fd _ _ | .read fd _ _ | .write fd _ _ => some fd
  | _ => none

theorem FileMethod.fileFd_call (m : FileMethod) (fd : Int) : (m.call fd).fileFd = some fd := by
  cases m <;> rfl

def fileClass : Class Syscall Response Errno File Int FileMethod where
  null := fdPolicy.null
  raw := Wrapper.raw
  touches := Syscall.fileFd
  empty := Wrapper.default
  adopt := Wrapper.ofRaw
  moveConstruct := Wrapper.moveConstruct
  assign v w := (Wrapper.moveAssign v w).1
  release := none
  method := FileMethod.run
  destroy := Wrapper.destroy
  raw_empty := rfl
  raw_adopt _ := rfl
  raw_moveConstruct := Wrapper.raw_moveConstruct
  raw_assign := Wrapper.raw_moveAssign
  raw_release := by simp
  method_paths := by
    intro m w e
    rw [FileMethod.run_apply]
    have htouch : (m.call w.fd.raw).fileFd = some (Wrapper.raw w) := m.fileFd_call _
    exact fun r => ⟨⟨by simp, by simp [htouch]⟩, .inl rfl⟩
  destroy_paths := by
    intro w e
    rw [Wrapper.destroy_apply]
    exact fun r => ⟨by simp, by simp [fdPolicy, Syscall.fileFd]⟩

theorem fileClass_singleCall :
    fileClass.SingleCall fun m fd => m.elim (.close fd) fun m => m.call fd where
  method m w e := ⟨_, FileMethod.run_apply m w e⟩
  destroy w e := ⟨_, Wrapper.destroy_apply w e⟩

theorem fileClass_lawful (drops : Bool) :
    (Table.kernel fdPolicy drops).Lawful fileClass Table.Owns (Table.Dropped drops) := by
  apply Table.lawful fdPolicy drops fileClass rfl
  intro c d h
  cases c <;> first | exact h | cases h

section Files

variable {ι : Type} [DecidableEq ι]

/-- A file's descriptor is closed at most once, no call is made on it after that, and
every call is made on a descriptor that is open for the file, or on none. -/
def FilesRespectful (log : List (Entry (Table Int) Syscall Response Int)) : Prop :=
  (∀ t, ((calls log).filter fun c =>
    (Table.kernel fdPolicy false).Ends c ∧ c.token = some t).length ≤ 1) ∧
  ((calls log).Pairwise fun c c' =>
    (Table.kernel fdPolicy false).Ends c → ∀ t, c.token = some t → c'.token ≠ some t) ∧
  ∀ c ∈ calls log, c.call.fileFd = some c.raw ∧
    match c.token with
    | none => c.raw = -1
    | some t => c.before.Owns t c.raw

/-- No method and no destructor runs on a file after a close of its descriptor
succeeded. -/
def NotAfterClose (s : Owners.State ι (Table Int) Syscall Response Errno File Int)
    (a : Action ι Response Int FileMethod (Other Int)) : Prop :=
  Careful (Table.kernel fdPolicy false) (Table.Dropped false) s a

instance (s : Owners.State ι (Table Int) Syscall Response Errno File Int)
    (a : Action ι Response Int FileMethod (Other Int)) : Decidable (NotAfterClose s a) :=
  inferInstanceAs (Decidable (Careful ..))

/-- A run respects the descriptors of all owners exactly when no file is used or
destroyed after its `close` succeeded. -/
theorem File.respectful_iff_not_after_close (k : Table Int) (e : Errno)
    (as : List (Action ι Response Int FileMethod (Other Int))) :
    Machine.Always (step fileClass (Table.kernel fdPolicy false)) (fun s => FilesRespectful s.log)
        (State.init k e) as ↔
      Machine.Guarded (step fileClass (Table.kernel fdPolicy false)) NotAfterClose
        (State.init k e) as :=
  respectful_iff_careful (fileClass_lawful false) fileClass_singleCall
    (fun _ _ h => Bool.false_ne_true h.1) k e as

/-- An explicit close, another open that gets the number, and the destructor. -/
def doubleCloseRun : List (Action Unit Response Int FileMethod (Other Int)) :=
  [.adopt () 3, .method () .close ⟨0, 0, .nothing⟩, .other (.open_ 3), .destroy () ⟨0, 0, .nothing⟩]

theorem File.double_close :
    ∃ s, Machine.run (step fileClass (Table.kernel fdPolicy false)) (State.init Table.empty 0)
        doubleCloseRun = some s ∧
      ((calls s.log).filter fun c =>
        (Table.kernel fdPolicy false).Ends c ∧ c.token = some 0).length = 2 ∧
      ∃ c ∈ calls s.log, c.call = .close 3 ∧ c.answer.ret = 0 ∧
        c.before.slots 3 = some ⟨none, false⟩ :=
  ⟨_, rfl, rfl, _, .tail _ (.head _), rfl, rfl, rfl⟩

end Files
