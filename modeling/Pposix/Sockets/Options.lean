-- SUMMARY: Socket options against a kernel store: when a get reads back what a set wrote.
import Pposix.Sockets.Socket
import Mathlib.Logic.Function.Basic

/-!
# Reading options back

The setter and the getter of an option type use the same option code and the same
representation. What differs is the test for "on": the boolean getters compare with
zero, `socket_linger::enabled` with one, and the kernel may report any other value.
-/

/-! ## The kernel store -/

/-- What is stored for a socket, a level and an option code. -/
abbrev OptStore := Int × Int × Int → OptVal

/-- The codes of the options that are on or off. -/
def onOffCodes : List Int :=
  [SocketOption.debug, .broadcast, .reuseaddr, .keepalive, .oobinline, .dontroute,
    .acceptconn].map SocketOption.underlying

/-- What the kernel does with one call. -/
structure Outcome where
  /-- The `errno` of a call that fails. -/
  failure : Option Errno
  /-- What a call that succeeds leaves in `errno`. -/
  errno : Errno
  /-- The integer that is reported for "on". -/
  on : Int
  on_ne_zero : on ≠ 0

/-- What a get reports of a stored value. -/
def Outcome.report (o : Outcome) (code : Int) : OptVal → OptVal
  | .int i => .int (if code ∈ onOffCodes ∧ i ≠ 0 then o.on else i)
  | .linger l => .linger { l with onoff := if l.onoff ≠ 0 then o.on else 0 }
  | .timeval t => .timeval t

/-- The kernel, for calls that pass an object with its own size. -/
def Outcome.env (o : Outcome) : Prog.Env OptStore Syscall Response := fun st c =>
  match c, o.failure with
  | .setsockopt .., some err => some (⟨-1, err, .nothing⟩, st)
  | .setsockopt fd level option (.object v) len, none =>
    if len = v.size then some (⟨0, o.errno, .nothing⟩, Function.update st (fd, level, option) v)
    else none
  | .getsockopt .., some err => some (⟨-1, err, .nothing⟩, st)
  | .getsockopt fd level option _ len, none =>
    let v := o.report option (st (fd, level, option))
    some (⟨0, o.errno, .option v (min v.size len)⟩, st)
  | _, _ => none

/-! ## The two tables -/

namespace OptionType

def option : OptionType → SocketOption
  | .debug => .debug
  | .broadcast => .broadcast
  | .reuseaddr => .reuseaddr
  | .acceptconn => .acceptconn
  | .keepalive => .keepalive
  | .linger => .linger
  | .oobinline => .oobinline
  | .sndbuf => .sndbuf
  | .rcvbuf => .rcvbuf
  | .error => .error
  | .type => .type
  | .dontroute => .dontroute
  | .rcvlowat => .rcvlowat
  | .rcvtimeo => .rcvtimeo
  | .sndlowat => .sndlowat
  | .sndtimeo => .sndtimeo

theorem option_injective : Function.Injective option := by
  intro t t' h
  cases t <;> cases t' <;> first | rfl | cases h

/-- The object that a setter passes. -/
def encode : (t : OptionType) → t.Value → OptVal
  | .debug, (b : Bool) | .broadcast, (b : Bool) | .reuseaddr, (b : Bool) | .acceptconn, (b : Bool)
  | .keepalive, (b : Bool) | .oobinline, (b : Bool) | .dontroute, (b : Bool) =>
    .int (if b then 1 else 0)
  | .sndbuf, (i : Int) | .rcvbuf, (i : Int) | .error, (i : Int) | .type, (i : Int)
  | .rcvlowat, (i : Int) | .sndlowat, (i : Int) => .int i
  | .linger, (lin : SocketLinger) => .linger lin.get
  | .rcvtimeo, (t : SocketTimeo) | .sndtimeo, (t : SocketTimeo) => .timeval t.get

/-- The object that a getter passes. -/
def blank : OptionType → OptVal
  | .linger => .linger ⟨0, 0⟩
  | .rcvtimeo | .sndtimeo => .timeval ⟨0, 0⟩
  | _ => .int 0

/-- What a getter makes of its object. -/
def decode : (t : OptionType) → Data → t.Value
  | .debug, d | .broadcast, d | .reuseaddr, d | .acceptconn, d | .keepalive, d | .oobinline, d
  | .dontroute, d => (d.asInt != 0 : Bool)
  | .sndbuf, d | .rcvbuf, d | .error, d | .type, d | .rcvlowat, d | .sndlowat, d => d.asInt
  | .linger, d => (⟨d.asLinger⟩ : SocketLinger)
  | .rcvtimeo, d | .sndtimeo, d => (⟨d.asTimeval⟩ : SocketTimeo)

/-- There is a setter. -/
def settable : OptionType → Bool
  | .acceptconn | .error | .type => false
  | _ => true

end OptionType

namespace Socket

/-- Every setter passes its object under the code of its type. -/
theorem setsockopt_eq (this : Socket) (l : Int) (t : OptionType) (v : t.Value) :
    this.setsockopt l t v =
      if t.settable then some (this.unsafeSetsockopt l t.option (.ofObject (t.encode v)))
      else none := by
  cases t <;> rfl

/-- Every getter passes a blank object under the code of its type. -/
theorem getsockopt_eq (this : Socket) (l : Int) (t : OptionType) :
    this.getsockopt l t = this.getsockoptObject l t.option t.blank t.decode := by
  cases t <;> rfl

/-! ## One call -/

theorem size_ofObject (v : OptVal) : (AnyView.ofObject v).length.toNat = v.size := by
  cases v <;> rfl

theorem size_le (v : OptVal) : v.size ≤ 16 := by
  cases v <;> simp [OptVal.size]

theorem toSocklen_size (v : OptVal) : toSocklen v.size = v.size :=
  Nat.mod_eq_of_lt (Nat.lt_of_le_of_lt (size_le v) (by decide))

theorem unsafeSetsockopt_apply (this : Socket) (l : Int) (opt : SocketOption) (v : OptVal)
    (e : Errno) :
    this.unsafeSetsockopt l opt (.ofObject v) e =
      .call (.setsockopt this.socketFd.raw l opt.underlying (.object v) v.size) fun r =>
        .done (r.errorCode, r.errno) := by
  rw [unsafeSetsockopt_call, size_ofObject, toSocklen_size]
  rfl

theorem getsockoptObject_apply {α : Type} (this : Socket) (l : Int) (opt : SocketOption)
    (val : OptVal) (func : Data → α) (e : Errno) :
    this.getsockoptObject l opt val func e =
      .call (.getsockopt this.socketFd.raw l opt.underlying (.object val) val.size) fun r =>
        .done (if r.ret = -1 then .error ⟨r.errno⟩ else .value (func (r.written (.object val))),
          r.errno) := by
  have hbind : this.getsockoptObject l opt val func e =
      (this.unsafeGetsockopt l opt (.ofObject val) e).bind fun x =>
        resultMap x.1.1 (fun _ => return .ofValue (func x.1.2)) x.2 := rfl
  have hlen : ¬ (AnyView.ofObject val).length.toNat > UInt32.size - 1 := by
    have hle := size_le val
    have hsize : UInt32.size = 4294967296 := rfl
    rw [size_ofObject]
    omega
  rw [hbind, this.unsafeGetsockopt_of_fits l opt hlen, size_ofObject, toSocklen_size]
  refine congrArg (Prog.call _) (funext fun r => ?_)
  simp only [Prog.bind]
  split <;> rfl

theorem exec_unsafeSetsockopt (this : Socket) (l : Int) (opt : SocketOption) (v : OptVal)
    (o : Outcome) (e : Errno) (st : OptStore) :
    Sys.exec o.env e st (this.unsafeSetsockopt l opt (.ofObject v)) =
      some (match o.failure with
        | some err => ((⟨err⟩, err), st)
        | none => (({}, o.errno),
            Function.update st (this.socketFd.raw, l, opt.underlying) v)) := by
  unfold Sys.exec
  rw [unsafeSetsockopt_apply]
  cases hf : o.failure with
  | some err => simp [Outcome.env, hf, Response.errorCode, Prog.exec]
  | none => simp [Outcome.env, hf, Response.errorCode, Prog.exec]

theorem exec_getsockoptObject {α : Type} (this : Socket) (l : Int) (opt : SocketOption)
    (val : OptVal) (func : Data → α) (o : Outcome) (e : Errno) (st : OptStore) :
    Sys.exec o.env e st (this.getsockoptObject l opt val func) =
      some (match o.failure with
        | some err => ((.error ⟨err⟩, err), st)
        | none => ((.value (func (.object (o.report opt.underlying
            (st (this.socketFd.raw, l, opt.underlying))))), o.errno), st)) := by
  unfold Sys.exec
  rw [getsockoptObject_apply]
  cases hf : o.failure with
  | some err => simp [Outcome.env, hf, Prog.exec]
  | none => simp [Outcome.env, hf, Response.written, Prog.exec]

end Socket

/-! ## Reading back -/

/-- What the accessors of a type show. -/
inductive Observed where
  | flag (b : Bool)
  | number (i : Int)
  | linger (enabled : Bool) (duration : Int)
  | time (seconds microseconds : Int)
  deriving DecidableEq, Repr

def OptionType.observe : (t : OptionType) → t.Value → Observed
  | .debug, (b : Bool) | .broadcast, (b : Bool) | .reuseaddr, (b : Bool) | .acceptconn, (b : Bool)
  | .keepalive, (b : Bool) | .oobinline, (b : Bool) | .dontroute, (b : Bool) => .flag b
  | .sndbuf, (i : Int) | .rcvbuf, (i : Int) | .error, (i : Int) | .type, (i : Int)
  | .rcvlowat, (i : Int) | .sndlowat, (i : Int) => .number i
  | .linger, (lin : SocketLinger) => .linger lin.enabled lin.duration
  | .rcvtimeo, (t : SocketTimeo) | .sndtimeo, (t : SocketTimeo) => .time t.seconds t.microseconds

/-- The kernel reports the `l_onoff` of a linger value as one if and only if it is one. -/
def LingerKept (o : Outcome) : (t : OptionType) → t.Value → Prop
  | .linger, (lin : SocketLinger) =>
    lin.linger.onoff ≠ 0 → (o.on = 1 ↔ lin.linger.onoff = 1)
  | _, _ => True

/-- What is read shows what was written, except for the test of `l_onoff`. -/
theorem observe_decode_iff (o : Outcome) (t : OptionType) (v : t.Value) :
    t.observe (t.decode (.object (o.report t.option.underlying (t.encode v)))) = t.observe v ↔
      LingerKept o t v := by
  have hon := o.on_ne_zero
  cases t with
  | linger =>
    obtain ⟨⟨onoff, duration⟩⟩ := v
    change Observed.linger (decide ((if onoff ≠ 0 then o.on else 0) = 1)) duration =
      .linger (decide (onoff = 1)) duration ↔ (onoff ≠ 0 → (o.on = 1 ↔ onoff = 1))
    by_cases hoff : onoff = 0 <;> simp [hoff]
  | debug | broadcast | reuseaddr | acceptconn | keepalive | oobinline | dontroute =>
    -- A boolean getter compares with zero, so every "on" is true.
    refine iff_of_true ?_ trivial
    change Bool at v
    cases v <;> simp [OptionType.observe, OptionType.decode, OptionType.encode, OptionType.option,
      Outcome.report, onOffCodes, SocketOption.underlying, Data.asInt, hon]
  | sndbuf | rcvbuf | error | type | rcvlowat | sndlowat =>
    refine iff_of_true ?_ trivial
    simp [OptionType.observe, OptionType.decode, OptionType.encode, OptionType.option,
      Outcome.report, onOffCodes, SocketOption.underlying, Data.asInt]
  | rcvtimeo | sndtimeo => exact iff_of_true rfl trivial

/-- A set of `v` from the store `st` and a get after it: if the kernel carries both out,
the get shows `v`; a call that fails reports its `errno` and no value; and no other option
of any socket and level reads differently than before. -/
structure ReadsBack (this : Socket) (l : Int) (t : OptionType) (v : t.Value) (set : Sys ErrorCode)
    (st : OptStore) (e : Errno) (o₁ o₂ : Outcome) : Prop where
  value : o₁.failure = none → o₂.failure = none → ∃ e₁ st₁ w e₂,
    Sys.exec o₁.env e st set = some (({}, e₁), st₁) ∧
      Sys.exec o₂.env e₁ st₁ (this.getsockopt l t) = some ((.value w, e₂), st₁) ∧
      t.observe w = t.observe v
  set_failure : ∀ err, o₁.failure = some err →
    Sys.exec o₁.env e st set = some ((⟨err⟩, err), st)
  get_failure : ∀ err, o₂.failure = some err → ∀ e₁ st₁,
    Sys.exec o₂.env e₁ st₁ (this.getsockopt l t) = some ((.error ⟨err⟩, err), st₁)
  others : ∀ ec e₁ st₁, Sys.exec o₁.env e st set = some ((ec, e₁), st₁) →
    ∀ (this' : Socket) (l' : Int) (t' : OptionType),
      (this'.socketFd.raw, l', t') ≠ (this.socketFd.raw, l, t) → ∀ (o : Outcome) (e' : Errno),
      (Sys.exec o.env e' st₁ (this'.getsockopt l' t')).map Prod.fst =
        (Sys.exec o.env e' st (this'.getsockopt l' t')).map Prod.fst

/-- The store after a set reads the same everywhere else. -/
theorem exec_getsockopt_update (this this' : Socket) (l l' : Int) (t t' : OptionType) (v : OptVal)
    (hne : (this'.socketFd.raw, l', t') ≠ (this.socketFd.raw, l, t)) (st : OptStore) (o : Outcome)
    (e : Errno) :
    (Sys.exec o.env e (Function.update st (this.socketFd.raw, l, t.option.underlying) v)
        (this'.getsockopt l' t')).map Prod.fst =
      (Sys.exec o.env e st (this'.getsockopt l' t')).map Prod.fst := by
  have hkey : (this'.socketFd.raw, l', t'.option.underlying) ≠
      (this.socketFd.raw, l, t.option.underlying) := by
    intro h
    simp only [Prod.mk.injEq] at h
    obtain ⟨hfd, hl, hcode⟩ := h
    have ht : t' = t := OptionType.option_injective (SocketOption.underlying_injective hcode)
    exact hne (by rw [hfd, hl, ht])
  rw [Socket.getsockopt_eq, Socket.exec_getsockoptObject, Socket.exec_getsockoptObject,
    Function.update_of_ne hkey]
  cases o.failure <;> rfl

/-- Options read back as written exactly when the kernel keeps a linger value's one. -/
theorem Socket.readsBack_iff (this : Socket) (l : Int) (t : OptionType) (v : t.Value)
    (set : Sys ErrorCode) (hset : this.setsockopt l t v = some set) (st : OptStore) (e : Errno)
    (o₁ o₂ : Outcome) :
    ReadsBack this l t v set st e o₁ o₂ ↔
      (o₁.failure = none → o₂.failure = none → LingerKept o₂ t v) := by
  rw [setsockopt_eq] at hset
  split at hset
  · cases hset
    have hget : ∀ e₁, o₂.failure = none → Sys.exec o₂.env e₁
        (Function.update st (this.socketFd.raw, l, t.option.underlying) (t.encode v))
        (this.getsockopt l t) =
        some ((.value (t.decode (.object (o₂.report t.option.underlying (t.encode v)))),
          o₂.errno), Function.update st (this.socketFd.raw, l, t.option.underlying) (t.encode v)) := by
      intro e₁ h₂
      rw [getsockopt_eq, exec_getsockoptObject, h₂, Function.update_self]
    constructor
    · intro h h₁ h₂
      obtain ⟨e₁, st₁, w, e₂, hset, hread, hw⟩ := h.value h₁ h₂
      rw [exec_unsafeSetsockopt, h₁] at hset
      cases hset
      rw [hget _ h₂] at hread
      cases hread
      exact (observe_decode_iff o₂ t v).mp hw
    · intro hkept
      refine ⟨fun h₁ h₂ => ?_, fun err h₁ => ?_, fun err h₂ e₁ st₁ => ?_, ?_⟩
      · refine ⟨o₁.errno, _, _, _, ?_, hget _ h₂, (observe_decode_iff o₂ t v).mpr (hkept h₁ h₂)⟩
        rw [exec_unsafeSetsockopt, h₁]
      · rw [exec_unsafeSetsockopt, h₁]
      · rw [getsockopt_eq, exec_getsockoptObject, h₂]
      · intro ec e₁ st₁ hexec this' l' t' hne o e'
        rw [exec_unsafeSetsockopt] at hexec
        cases h₁ : o₁.failure with
        | some err =>
          rw [h₁] at hexec
          cases hexec
          rfl
        | none =>
          rw [h₁] at hexec
          cases hexec
          exact exec_getsockopt_update this this' l l' t t' _ hne st o e'
  · cases hset

/-- A linger value with a kernel that reports "on" as one. -/
theorem Socket.readsBack_linger_one :
    ReadsBack ⟨⟨5⟩⟩ 1 .linger (SocketLinger.make true 10)
      (unsafeSetsockopt ⟨⟨5⟩⟩ 1 .linger (.ofObject (.linger ⟨1, 10⟩))) (fun _ => .int 0) 0
      ⟨none, 0, 1, by decide⟩ ⟨none, 0, 1, by decide⟩ :=
  (readsBack_iff _ _ _ _ _ rfl _ _ _ _).mpr fun _ _ _ => by decide

/-- With a kernel that reports "on" as two, a linger value that was enabled reads back as
not enabled. -/
theorem Socket.linger_reads_back_disabled :
    ∃ st₁, Sys.exec (Outcome.env ⟨none, 0, 1, by decide⟩) 0 (fun _ => .int 0)
        (unsafeSetsockopt ⟨⟨5⟩⟩ 1 .linger (.ofObject (.linger (SocketLinger.make true 10).get))) =
          some (({}, 0), st₁) ∧
      Sys.exec (Outcome.env ⟨none, 0, 2, by decide⟩) 0 st₁ (getsockopt ⟨⟨5⟩⟩ 1 .linger) =
        some ((.value ⟨⟨2, 10⟩⟩, 0), st₁) ∧
      (SocketLinger.make true 10).enabled = true ∧ SocketLinger.enabled ⟨⟨2, 10⟩⟩ = false :=
  ⟨_, rfl, rfl, rfl, rfl⟩
