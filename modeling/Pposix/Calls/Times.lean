-- SUMMARY: The times that the library hands to the kernel and gets back: which of them are normal, and which are read without loss.
import Pposix.Base.Clock
import Pposix.Calls.Lengths
import Pposix.Core.Time
import Pposix.Rt.Mqueue
import Pposix.Sockets.Options

/-!
# Times

The constructors of the three time types store their two counts as they are given. A
count below the second is carried into no other field, so the kernel gets a normal time
only of a count that is normal itself. The accessors of the socket timeouts narrow both
counts to `int`.
-/

/-! ## Readings -/

def Timespec.clock (t : Timespec) : Clock 1000000000 := ⟨t.sec, t.nsec⟩

def Timeval.clock (t : Timeval) : Clock 1000000 := ⟨t.sec, t.usec⟩

/-- What `seconds()` and `microseconds()` tell together. -/
def SocketTimeo.told (this : SocketTimeo) : Clock 1000000 := ⟨this.seconds, this.microseconds⟩

namespace Times

/-- A `timeval` of the kernel: both counts have 64 bits. -/
def kernelTimeval (sec usec : Int64) : Timeval := ⟨sec.toInt, usec.toInt⟩

/-- The reading holds the two counts as they were given. So it is of the time `s` seconds and
`d` units, and it is the normal one exactly when the units are not negative and make less
than a second. -/
structure Stores {unit : Nat} (t : Clock unit) (s d : Int) : Prop where
  fields : t = ⟨s, d⟩
  total : t.total = s * unit + d
  normal : t.Denotes (s * unit + d) ↔ 0 ≤ d ∧ d < unit

theorem stores_mk {unit : Nat} (s d : Int) : Stores (⟨s, d⟩ : Clock unit) s d where
  fields := rfl
  total := rfl
  normal := and_iff_left rfl

/-! ## Narrowing -/

/-- The conversion to `int` keeps what an `int` can hold. -/
theorem toInt_eq_iff (n : Int) : toInt n = n ↔ ∃ i : Int32, i.toInt = n := by
  constructor
  · exact fun h => ⟨Int32.ofInt n, Int32.toInt_ofInt.trans h⟩
  · rintro ⟨i, rfl⟩
    exact i.toInt_bmod

/-- The accessors tell the time of a normal `timeval` exactly when its seconds fit. -/
theorem told_denotes_iff {t : Timeval} (h : t.clock.Normal) :
    (SocketTimeo.mk t).told.Denotes t.clock.total ↔ ∃ s : Seconds, s.toInt = t.sec := by
  have husec : toInt t.usec = t.usec := by
    have hlt : t.usec < 1000000 := h.2
    exact Int.bmod_eq_of_le (Int.le_trans (by decide) h.1) (Int.lt_trans hlt (by decide))
  have htold : (SocketTimeo.mk t).told = ⟨toInt t.sec, t.usec⟩ :=
    congrArg (Clock.mk (toInt t.sec)) husec
  rw [h.denotes_total_iff, htold, Timeval.clock, Clock.mk.injEq, and_iff_left rfl, toInt_eq_iff]

/-! ## Through the kernel -/

/-- The time that a call hands over. -/
def timeval : Syscall → Option Timeval
  | .setsockopt _ _ _ (.object (.timeval t)) _ => some t
  | _ => none

def timespec : Syscall → Option Timespec
  | .mqTimedsend _ _ _ _ t | .mqTimedreceive _ _ _ t => some t
  | _ => none

section

variable {α τ : Type} {time : Syscall → Option τ} {c : Syscall} {t : τ}

/-- The program makes one call, which hands the time `t` over. -/
def HandsOver (time : Syscall → Option τ) (t : τ) (p : Prog Syscall Response α) : Prop :=
  ∃ c, time c = some t ∧ Makes c p

theorem handsOver_call {f : Response → α} (h : time c = some t) :
    HandsOver time t (.call c fun r => .done (f r)) :=
  ⟨c, h, makes_call_iff.mpr rfl⟩

end

theorem unsafeSetsockopt_handsOver (this : Socket) (l : Int) (o : SocketOption) (t : Timeval)
    (e : Errno) : HandsOver timeval t (this.unsafeSetsockopt l o (.ofObject (.timeval t)) e) := by
  rw [Socket.unsafeSetsockopt_apply]
  exact handsOver_call rfl

/-- The setters of the socket timeouts hand the stored `timeval` over. -/
theorem setsockopt_handsOver (this : Socket) (l : Int) (v : SocketTimeo) (e : Errno) :
    (∀ set ∈ this.setsockopt l .rcvtimeo v, HandsOver timeval v.get (set e)) ∧
      ∀ set ∈ this.setsockopt l .sndtimeo v, HandsOver timeval v.get (set e) := by
  constructor
  · rintro set ⟨⟩
    apply unsafeSetsockopt_handsOver
  · rintro set ⟨⟩
    apply unsafeSetsockopt_handsOver

/-- The timed calls of a message queue hand their `timespec` over. -/
theorem timed_handsOver (this : Mq) (message : ByteCspan) (priority : MqMessagePriority)
    (buffer : ByteSpan) (t : Timespec) (e : Errno) :
    HandsOver timespec t (this.unsafeTimedSend message priority t e) ∧
      HandsOver timespec t (this.timedReceive buffer t e) := by
  constructor
  · rw [Mq.unsafeTimedSend, commonCall_apply]
    exact handsOver_call rfl
  · rw [Mq.timedReceive, Mq.received_apply]
    exact handsOver_call rfl

/-- The getters of the socket timeouts return the `timeval` that the kernel wrote. -/
theorem getsockoptTimeo_path (this : Socket) (l : Int) (o : SocketOption) (e : Errno) :
    (this.getsockoptTimeo l o e).Paths fun h x => ∃ c r, h = [(c, r)] ∧
      ∀ t len, r.ret ≠ -1 → r.out = .option (.timeval t) len → x.1 = .value ⟨t⟩ := by
  unfold Socket.getsockoptTimeo
  rw [Socket.getsockoptObject_apply]
  refine fun r => ⟨_, r, rfl, fun t len hret hout => ?_⟩
  rw [if_neg hret, Response.written, hout]
  rfl

/-! ## The times -/

/-- The constructors lose nothing, and what they store is normal when the count below the
second is. The accessors lose nothing of a normal `timeval` whose seconds fit. -/
theorem times_lossless :
    (∀ (s : Seconds) (us : Microseconds),
      Stores (SocketTimeo.make s.toInt us.toInt).get.clock s.toInt us.toInt) ∧
    (∀ (s : Seconds) (ns : Nanoseconds), Stores (Timespec.make s ns).clock s.toInt ns.toInt) ∧
    (∀ s : Seconds, (SocketTimeo.ofSeconds s.toInt).get.clock.Denotes (s.toInt * 1000000) ∧
      (Timespec.ofSeconds s).clock.Denotes (s.toInt * 1000000000)) ∧
    ∀ sec usec : Int64, (kernelTimeval sec usec).clock.Normal →
      (∃ s : Seconds, s.toInt = sec.toInt) →
      (SocketTimeo.mk (kernelTimeval sec usec)).told.Denotes
        (kernelTimeval sec usec).clock.total := by
  refine ⟨fun s us => stores_mk _ _, fun s ns => stores_mk _ _, fun s => ⟨?_, ?_⟩, ?_⟩
  · exact Clock.denotes_whole (by decide) _
  · exact Clock.denotes_whole (by decide) _
  · exact fun sec usec hnormal hsec => (told_denotes_iff hnormal).mpr hsec

/-- Ninety seconds and a half from the kernel. -/
theorem times_lossless_ninety_seconds :
    (SocketTimeo.mk (kernelTimeval 90 500000)).told.Denotes 90500000 :=
  times_lossless.2.2.2 90 500000 (by decide) ⟨90, rfl⟩

/-- One second and `10 ^ 9` nanoseconds are stored as they are, and so are one second and
1500000 microseconds. Of `2 ^ 32 + 5` seconds, `seconds()` tells five. -/
theorem no_carry :
    ¬ (Timespec.make 1 1000000000).clock.Denotes 2000000000 ∧
      ¬ (SocketTimeo.make 1 1500000).get.clock.Denotes 2500000 ∧
      (kernelTimeval 4294967301 0).clock.Normal ∧
      ¬ (SocketTimeo.mk (kernelTimeval 4294967301 0)).told.Denotes
        (kernelTimeval 4294967301 0).clock.total := by
  decide

end Times
