-- SUMMARY: The system log of a program: which messages reach it, and with which priority, facility and text.
import Pposix.Base.NumberedLine
import Pposix.Log.Register

/-!
# The logger

The C library, here as glibc has it, keeps a mask, the address of an identifier, options
and a default facility, and writes a line of text for each message that the mask lets
through. The priority and the facility of a message share one number. The lines of a run are those of a logger that
knows nothing of words, and each line gives back its priority and its facility.

The identifier is not copied. It is read when a message is logged, as the format is and
what the arguments point to, and the program may change all of these in between.
-/

namespace SystemLog

/-! ## Text -/

/-- How text is made from memory, which is of the type `M`. -/
structure Texts (M : Type) where
  /-- The string that starts at an address. -/
  string : M → Ptr → List UInt8
  /-- The format with its arguments put in as `::printf` does, and for `%m` the text of an
  `errno`. -/
  expand : M → Errno → Ptr → List Vararg → List UInt8
  /-- The name of the program. -/
  program : List UInt8

/-- The time and the process of a call, and what the call leaves in `errno`. -/
structure Moment where
  time : List UInt8
  pid : Nat
  pid_pos : 0 < pid
  err : Errno

/-- The functions of the library. -/
inductive Call where
  | openlog (identifier : Ptr) (options : SyslogOption) (facility : SyslogFacility)
  | openlogString (identifier : StdString) (options : SyslogOption) (facility : SyslogFacility)
  | closelog
  | setlogmask (priorities : SyslogPrioritySet)
  | syslog (priority : SyslogPriority) (facility : SyslogFacility) (format : Ptr)
      (args : List Vararg)

inductive Action (M : Type) where
  | call (c : Call) (now : Moment)
  /-- The program writes to its memory. -/
  | store (mem : M)

variable {M : Type}

/-! ## What is promised -/

/-- A message as the reader of the log sees it. -/
structure Record where
  priority : SyslogPriority
  facility : SyslogFacility
  time : List UInt8
  tag : List UInt8
  pid : Option Nat
  text : List UInt8

/-- A process between brackets. -/
def process : Option Nat → List UInt8
  | none => []
  | some pid => '['.toUInt8 :: NumberedLine.digits pid ++ [']'.toUInt8]

/-- What follows the number in the line of a record. -/
def Record.body (r : Record) : List UInt8 :=
  r.time ++ ' '.toUInt8 :: r.tag ++ process r.pid ++ ':'.toUInt8 :: ' '.toUInt8 :: r.text

/-- The line of a record; its number is the sum of the two values. -/
def Record.line (r : Record) : List UInt8 :=
  NumberedLine.make (r.facility.underlying.toNat + r.priority.underlying) r.body

structure Logger (M : Type) where
  mem : M
  errno : Errno
  enabled : Set SyslogPriority
  /-- The identifier; without one the name of the program is used. -/
  identifier : Option Ptr
  /-- The option `log_pid` was given. -/
  pid : Bool
  /-- The facility of the messages that name none, which are those of the kernel. -/
  default : SyslogFacility
  records : List Record

/-- A null identifier leaves the one that was there. -/
def Logger.opened (l : Logger M) (identifier : Ptr) (options : SyslogOption)
    (facility : SyslogFacility) : Logger M :=
  { l with
    identifier := if identifier = 0 then l.identifier else some identifier
    pid := options.or .logPid = options
    default := facility }

open Classical in
/-- What a call makes of the logger, `errno` apart. -/
noncomputable def Logger.afterCall (T : Texts M) (now : Moment) (l : Logger M) :
    Call → Logger M
  | .openlog identifier options facility => l.opened identifier options facility
  | .openlogString identifier options facility => l.opened identifier.cStr options facility
  | .closelog => { l with identifier := none }
  | .setlogmask priorities =>
    if priorities.toMask = 0 then l else { l with enabled := priorities.toSet }
  | .syslog priority facility format args =>
    if priority ∈ l.enabled then
      { l with records := l.records ++ [{
          priority := priority
          facility := if facility = .kernel then l.default else facility
          time := now.time
          tag := l.identifier.elim T.program (T.string l.mem)
          pid := if l.pid then some now.pid else none
          text := T.expand l.mem l.errno format args }] }
    else l

noncomputable def Logger.after (T : Texts M) (l : Logger M) : Action M → Logger M
  | .call c now => { l.afterCall T now c with errno := now.err }
  | .store mem => { l with mem := mem }

/-- A line belongs to a record: it gives back the priority, the facility and the rest. -/
structure Tells (line : List UInt8) (r : Record) : Prop where
  priority : ∀ p : SyslogPriority, NumberedLine.number line % 8 = p.underlying ↔ p = r.priority
  facility : ∀ f : SyslogFacility,
    NumberedLine.number line / 8 * 8 = f.underlying.toNat ↔ f = r.facility
  rest : NumberedLine.rest line = r.body

/-! ## The C library -/

/-- `LOG_PRIMASK`. -/
def priMask : Word := 7

/-- `LOG_FACMASK`. -/
def facMask : Word := 0x3f8

/-- `LOG_PID`. -/
def pidBit : Word := 1

structure Lib where
  mask : Word
  /-- Where the identifier is; null without one. -/
  identifier : Ptr
  options : Word
  facility : Word
  lines : List (List UInt8)

/-- The number of a message whose facility may be left out. -/
def Lib.code (lib : Lib) (priority : Word) : Word :=
  if priority &&& facMask = 0 then priority ||| lib.facility else priority

/-- `"[" + (pid == 0)`: zero makes the string empty. -/
def bracket (c : Char) (pid : Nat) : List UInt8 := if pid = 0 then [] else [c.toUInt8]

/-- `%.0d`: zero makes no digits. -/
def number (pid : Nat) : List UInt8 := if pid = 0 then [] else NumberedLine.digits pid

/-- What stands between the number of a line and the text. -/
def header (time tag : List UInt8) (pid : Nat) : List UInt8 :=
  time ++ [' '.toUInt8] ++ tag ++ bracket '[' pid ++ number pid ++ bracket ']' pid ++
    [':'.toUInt8, ' '.toUInt8]

/-- The C library with one more line. -/
def Lib.write (T : Texts M) (now : Moment) (mem : M) (errno : Errno) (lib : Lib)
    (priority : Word) (format : Ptr) (args : List Vararg) : Lib :=
  let tag := if lib.identifier = 0 then T.program else T.string mem lib.identifier
  let pid := if lib.options &&& pidBit = 0 then 0 else now.pid
  { lib with lines := lib.lines ++ [NumberedLine.make (lib.code priority).toNat
      (header now.time tag pid ++ T.expand mem errno format args)] }

/-- The answer to a call that finds `errno` as it is given. The log takes every line. -/
def answer (T : Texts M) (now : Moment) (mem : M) (errno : Errno) :
    Prog.Env Lib Syscall Response := fun lib c =>
  match c with
  | .setlogmask maskpri =>
    some (⟨lib.mask.toInt, now.err, .nothing⟩,
      if maskpri ≠ 0 then { lib with mask := maskpri } else lib)
  | .openlog ident option facility =>
    some (⟨0, now.err, .nothing⟩, { lib with
      identifier := if ident = 0 then lib.identifier else ident
      options := option
      facility := if facility &&& ~~~facMask = 0 then facility else lib.facility })
  | .closelog => some (⟨0, now.err, .nothing⟩, { lib with identifier := 0 })
  | .syslog priority format args =>
    if priority &&& ~~~(priMask ||| facMask) ≠ 0 then none
    else if lib.mask &&& logMask (priority &&& priMask).toNat = 0 then
      some (⟨0, now.err, .nothing⟩, lib)
    else
      some (⟨0, now.err, .nothing⟩, lib.write T now mem errno priority format args)
  | _ => none

/-! ## The machine -/

structure State (M : Type) where
  lib : Lib
  mem : M
  errno : Errno

/-- The function that is called, without what it returns. -/
def run : Call → Sys Unit
  | .openlog identifier options facility => openlog identifier options facility
  | .openlogString identifier options facility => openlogString identifier options facility
  | .closelog => closelog
  | .setlogmask priorities => do let _ ← setlogmask priorities
  | .syslog priority facility format args => syslog priority facility format args

def step (T : Texts M) (s : State M) : Action M → Option (State M)
  | .call c now =>
    (Sys.exec (answer T now s.mem s.errno) s.errno s.lib (run c)).map fun ((_, err), lib) =>
      { s with lib := lib, errno := err }
  | .store mem => some { s with mem := mem }

/-! ## Codes -/

/-- The word for a priority and a facility. -/
def word (p : SyslogPriority) (f : SyslogFacility) : Word :=
  BitVec.ofNat 32 p.underlying ||| f.underlying

theorem word_and_priMask (p : SyslogPriority) (f : SyslogFacility) :
    word p f &&& priMask = BitVec.ofNat 32 p.underlying := by
  cases p <;> cases f <;> rfl

theorem word_and_facMask (p : SyslogPriority) (f : SyslogFacility) :
    word p f &&& facMask = f.underlying := by
  cases p <;> cases f <;> rfl

theorem word_valid (p : SyslogPriority) (f : SyslogFacility) :
    word p f &&& ~~~(priMask ||| facMask) = 0 := by
  cases p <;> cases f <;> rfl

theorem word_toNat (p : SyslogPriority) (f : SyslogFacility) :
    (word p f).toNat = f.underlying.toNat + p.underlying := by
  cases p <;> cases f <;> rfl

theorem facility_valid (f : SyslogFacility) : f.underlying &&& ~~~facMask = 0 := by
  cases f <;> rfl

theorem priority_toNat (p : SyslogPriority) :
    (BitVec.ofNat 32 p.underlying).toNat = p.underlying := by
  cases p <;> rfl

theorem priority_injective : Function.Injective SyslogPriority.underlying :=
  SyslogPriority.layout.bit_injective

theorem priority_lt (p : SyslogPriority) : p.underlying < 8 := by
  cases p <;> decide

/-- The value of a facility has no bit of a priority. -/
theorem eight_dvd_facility (f : SyslogFacility) : 8 ∣ f.underlying.toNat := by
  cases f <;> decide

theorem facility_eq_zero_iff (f : SyslogFacility) : f.underlying = 0 ↔ f = .kernel := by
  cases f <;> decide

theorem facility_injective : Function.Injective SyslogFacility.underlying := by
  intro f f' h
  cases f <;> cases f' <;> first | rfl | exact absurd h (by decide)

/-- The constants of `syslog_option` have the first bits. -/
def optionLayout : Layout (Fin 5) 32 where
  bit := Fin.val
  bit_lt i := by omega
  bit_injective _ _ h := Fin.ext h

/-- The bit is set when to join the option changes nothing. -/
theorem and_pidBit_eq_zero_iff (options : SyslogOption) :
    options.underlying &&& pidBit = 0 ↔ options.or .logPid ≠ options := by
  have hbit : pidBit = optionLayout.single 0 := rfl
  have hor : options.or .logPid = options ↔
      options.underlying ||| optionLayout.single 0 = options.underlying :=
    ⟨congrArg SyslogOption.underlying, congrArg SyslogOption.mk⟩
  rw [Ne, hor, Layout.or_single_eq_iff, hbit, ← Layout.and_single_ne_zero, Ne, not_not]

/-- The text of a line is laid out like a record. -/
theorem header_append (time tag text : List UInt8) {pid : Nat} (h : 0 < pid) (b : Bool) :
    header time tag (if b then pid else 0) ++ text =
      time ++ ' '.toUInt8 :: tag ++ process (if b then some pid else none) ++
        ':'.toUInt8 :: ' '.toUInt8 :: text := by
  cases b with
  | false => simp [header, bracket, number, process]
  | true => simp [header, bracket, number, process, Nat.ne_of_gt h]

/-- The line of a record tells it. -/
theorem line_tells (r : Record) : Tells r.line r := by
  have hlt := priority_lt r.priority
  obtain ⟨k, hk⟩ := eight_dvd_facility r.facility
  refine ⟨fun p => ?_, fun f => ?_, NumberedLine.rest_make _ _⟩
  · have hmod : NumberedLine.number r.line % 8 = r.priority.underlying := by
      rw [Record.line, NumberedLine.number_make]
      omega
    rw [hmod, priority_injective.eq_iff]
    exact eq_comm
  · have hdiv : NumberedLine.number r.line / 8 * 8 = r.facility.underlying.toNat := by
      rw [Record.line, NumberedLine.number_make]
      omega
    rw [hdiv, BitVec.toNat_inj, facility_injective.eq_iff]
    exact eq_comm

/-! ## Calls -/

/-- The C library holds what the logger holds. -/
structure Shows (s : State M) (l : Logger M) : Prop where
  mem : s.mem = l.mem
  errno : s.errno = l.errno
  enabled : LogMask.enabled s.lib.mask = l.enabled
  identifier : s.lib.identifier = l.identifier.getD 0
  named : ∀ a ∈ l.identifier, a ≠ 0
  pid : s.lib.options &&& pidBit = 0 ↔ l.pid = false
  facility : s.lib.facility = l.default.underlying
  lines : s.lib.lines = l.records.map Record.line

variable {T : Texts M} {s : State M} {l : Logger M}

/-- A message that names no facility gets the default one. -/
theorem Shows.code (h : Shows s l) (p : SyslogPriority) (f : SyslogFacility) :
    s.lib.code (word p f) = word p (if f = .kernel then l.default else f) := by
  unfold Lib.code
  rw [word_and_facMask]
  split <;> rename_i hzero
  · obtain rfl := (facility_eq_zero_iff f).mp hzero
    rw [if_pos rfl, h.facility]
    simp [word, SyslogFacility.underlying]
  · rw [if_neg fun heq => hzero ((facility_eq_zero_iff f).mpr heq)]

/-- The mask lets the enabled priorities through. -/
theorem Shows.masked_iff (h : Shows s l) (p : SyslogPriority) (f : SyslogFacility) :
    s.lib.mask &&& logMask (word p f &&& priMask).toNat = 0 ↔ p ∉ l.enabled := by
  rw [word_and_priMask, priority_toNat, ← h.enabled]
  exact not_not.symm

theorem Shows.tag (h : Shows s l) :
    (if s.lib.identifier = 0 then T.program else T.string s.mem s.lib.identifier) =
      l.identifier.elim T.program (T.string l.mem) := by
  rw [h.identifier, h.mem]
  cases hid : l.identifier with
  | none => exact if_pos rfl
  | some a => exact if_neg (h.named a hid)

theorem answer_syslog (now : Moment) (mem : M) (errno : Errno) (lib : Lib) (p : SyslogPriority)
    (f : SyslogFacility) (format : Ptr) (args : List Vararg) :
    answer T now mem errno lib (.syslog (word p f) format args) = some (⟨0, now.err, .nothing⟩,
      if lib.mask &&& logMask (word p f &&& priMask).toNat = 0 then lib
      else lib.write T now mem errno (word p f) format args) := by
  have hvalid : ¬ word p f &&& ~~~(priMask ||| facMask) ≠ 0 := not_not.mpr (word_valid p f)
  unfold answer
  simp only
  rw [if_neg hvalid]
  by_cases hmask : lib.mask &&& logMask (word p f &&& priMask).toNat = 0
  · rw [if_pos hmask, if_pos hmask]
  · rw [if_neg hmask, if_neg hmask]

theorem write_shows (h : Shows s l) {p : SyslogPriority} (hp : p ∈ l.enabled)
    (f : SyslogFacility) (format : Ptr) (args : List Vararg) (now : Moment) :
    Shows { s with
        lib := s.lib.write T now s.mem s.errno (word p f) format args, errno := now.err }
      (l.after T (.call (.syslog p f format args) now)) := by
  simp only [Logger.after, Logger.afterCall]
  rw [if_pos hp]
  refine ⟨h.mem, rfl, h.enabled, h.identifier, h.named, h.pid, h.facility, ?_⟩
  have hpid : (if s.lib.options &&& pidBit = 0 then 0 else now.pid) =
      if l.pid then now.pid else 0 := by
    cases hl : l.pid with
    | false => exact if_pos (h.pid.mpr hl)
    | true => exact if_neg fun hzero => Bool.false_ne_true ((h.pid.mp hzero).symm.trans hl)
  simp only [Lib.write, List.map_append, List.map_cons, List.map_nil, Record.line, Record.body,
    h.lines, h.tag, h.code, word_toNat, hpid, header_append _ _ _ now.pid_pos]
  rw [h.mem, h.errno]

theorem syslog_shows (h : Shows s l) (p : SyslogPriority) (f : SyslogFacility) (format : Ptr)
    (args : List Vararg) (now : Moment) :
    Shows { s with
        lib := if s.lib.mask &&& logMask (word p f &&& priMask).toNat = 0 then s.lib
          else s.lib.write T now s.mem s.errno (word p f) format args
        errno := now.err }
      (l.after T (.call (.syslog p f format args) now)) := by
  by_cases hp : p ∈ l.enabled
  · rw [if_neg (mt (h.masked_iff p f).mp (not_not.mpr hp))]
    exact write_shows h hp f format args now
  · rw [if_pos ((h.masked_iff p f).mpr hp)]
    simp only [Logger.after, Logger.afterCall]
    rw [if_neg hp]
    exact ⟨h.mem, rfl, h.enabled, h.identifier, h.named, h.pid, h.facility, h.lines⟩

theorem setlogmask_shows (h : Shows s l) (priorities : SyslogPrioritySet) (now : Moment) :
    Shows { s with
        lib := if priorities.toMask ≠ 0 then { s.lib with mask := priorities.toMask } else s.lib
        errno := now.err }
      (l.after T (.call (.setlogmask priorities) now)) := by
  simp only [Logger.after, Logger.afterCall]
  by_cases hzero : priorities.toMask = 0
  · rw [if_pos hzero, if_neg (not_not.mpr hzero)]
    exact ⟨h.mem, rfl, h.enabled, h.identifier, h.named, h.pid, h.facility, h.lines⟩
  · rw [if_neg hzero, if_pos hzero]
    exact ⟨h.mem, rfl, LogMask.enabled_eq _, h.identifier, h.named, h.pid, h.facility, h.lines⟩

/-- The identifier stays where it is, as an address. -/
theorem opened_shows (h : Shows s l) (identifier : Ptr) (options : SyslogOption)
    (facility : SyslogFacility) (err : Errno) :
    Shows { s with
        lib := { s.lib with
          identifier := if identifier = 0 then s.lib.identifier else identifier
          options := options.underlying
          facility := if facility.underlying &&& ~~~facMask = 0 then facility.underlying
            else s.lib.facility }
        errno := err }
      { l.opened identifier options facility with errno := err } := by
  refine ⟨h.mem, rfl, h.enabled, ?_, ?_, ?_, if_pos (facility_valid facility), h.lines⟩
  · simp only [Logger.opened]
    split
    · exact h.identifier
    · rfl
  · intro a ha
    simp only [Logger.opened] at ha
    split at ha <;> rename_i hnull
    · exact h.named a ha
    · cases ha
      exact hnull
  · rw [and_pidBit_eq_zero_iff]
    exact decide_eq_false_iff_not.symm

/-- A step does to the C library what it does to the logger. -/
theorem step_shows (h : Shows s l) (a : Action M) :
    ∃ s', step T s a = some s' ∧ Shows s' (l.after T a) := by
  cases a with
  | store mem =>
    exact ⟨_, rfl, rfl, h.errno, h.enabled, h.identifier, h.named, h.pid, h.facility, h.lines⟩
  | call c now =>
    cases c with
    | openlog identifier options facility =>
      exact ⟨_, rfl, opened_shows h identifier options facility now.err⟩
    | openlogString identifier options facility =>
      exact ⟨_, rfl, opened_shows h identifier.cStr options facility now.err⟩
    | closelog =>
      exact ⟨_, rfl, h.mem, rfl, h.enabled, rfl, by simp [Logger.after, Logger.afterCall],
        h.pid, h.facility, h.lines⟩
    | setlogmask priorities => exact ⟨_, rfl, setlogmask_shows h priorities now⟩
    | syslog p f format args =>
      refine ⟨_, ?_, syslog_shows h p f format args now⟩
      have hcall : run (.syslog p f format args) s.errno =
          .call (.syslog (word p f) format args) fun r => .done ((), r.errno) := rfl
      simp only [step, Sys.exec, hcall, Prog.exec, answer_syslog]
      rfl

/-! ## Runs -/

/-- When the program starts, `LOG_USER` is the default facility. -/
def State.init (mask : Word) (mem : M) (errno : Errno) : State M where
  lib := ⟨mask, 0, 0, SyslogFacility.user.underlying, []⟩
  mem := mem
  errno := errno

def Logger.init (mask : Word) (mem : M) (errno : Errno) : Logger M where
  mem := mem
  errno := errno
  enabled := LogMask.enabled mask
  identifier := none
  pid := false
  default := .user
  records := []

theorem shows_init (mask : Word) (mem : M) (errno : Errno) :
    Shows (.init mask mem errno) (.init mask mem errno) where
  mem := rfl
  errno := rfl
  enabled := rfl
  identifier := rfl
  named := by simp [Logger.init]
  pid := by simp [State.init, Logger.init]
  facility := rfl
  lines := rfl

theorem run_shows (as : List (Action M)) :
    ∀ {s : State M} {l : Logger M}, Shows s l →
      ∃ s', Machine.run (step T) s as = some s' ∧ Shows s' (as.foldl (Logger.after T) l) := by
  induction as with
  | nil => exact fun {s l} h => ⟨s, rfl, h⟩
  | cons a as ih =>
    intro s l h
    obtain ⟨s₁, hs₁, hshows⟩ := step_shows (T := T) h a
    obtain ⟨s', hs', hlast⟩ := ih hshows
    refine ⟨s', ?_, hlast⟩
    simp only [Machine.run]
    rw [hs₁]
    exact hs'

/-- Every run writes the lines of the logger's records, and the line of a record gives back
its priority, its facility and the rest of it. -/
theorem lines_are_records (T : Texts M) (mask : Word) (mem : M) (errno : Errno)
    (as : List (Action M)) :
    (∀ r : Record, Tells r.line r) ∧
      ∃ s', Machine.run (step T) (State.init mask mem errno) as = some s' ∧
        s'.lib.lines =
          (as.foldl (Logger.after T) (.init mask mem errno)).records.map Record.line := by
  obtain ⟨s', hs', hshows⟩ := run_shows as (shows_init mask mem errno)
  exact ⟨line_tells, s', hs', hshows.lines⟩

end SystemLog
