-- SUMMARY: Lengths that become narrower on their way to the kernel: which of them arrive as they were given.
import Pposix.Calls.Outcome
import Pposix.Sockets.Socket

/-!
# Lengths

A view has a 64-bit length. The kernel takes the length of a socket option as a 32-bit
`socklen_t` and the number of events as an `int`. Only `unsafe_getsockopt` tests the
length before it is converted.
-/

section

variable {α : Type} {c c' : Syscall} {f : Response → α} {refusal : α → Prop}

/-- The program makes the call `c`, and no other. -/
def Makes (c : Syscall) (p : Prog Syscall Response α) : Prop :=
  p.Paths fun h _ => ∃ r, h = [(c, r)]

/-- The program makes no call, and gives a refusal. -/
def Refuses (refusal : α → Prop) (p : Prog Syscall Response α) : Prop :=
  p.Paths fun h x => h = [] ∧ refusal x

theorem makes_call_iff : Makes c (.call c' fun r => .done (f r)) ↔ c' = c := by
  constructor
  · intro h
    obtain ⟨r, hr⟩ := h ⟨0, 0, .nothing⟩
    cases hr
    rfl
  · rintro rfl
    exact fun r => ⟨r, rfl⟩

theorem not_makes_done (a : α) : ¬ Makes c (.done a) := by
  rintro ⟨r, hr⟩
  cases hr

theorem not_refuses_call : ¬ Refuses refusal (.call c fun r => .done (f r)) := by
  intro h
  cases (h ⟨0, 0, .nothing⟩).1

end

/-! ## Socket options -/

namespace Socket

variable (this : Socket) (l : Int) (o : SocketOption) (data data' : Data) (len : SizeT)
  (e : Errno)

/-- Both functions pass the length that they are given, or both refuse it. -/
def LengthKept : Prop :=
  (Refuses (fun x => x.1 = makeErrnoCode eoverflow)
      (this.unsafeSetsockopt l o ⟨data, len⟩ e) ∧
    Refuses (fun x => x.1.1 = .error (makeErrnoCode eoverflow))
      (this.unsafeGetsockopt l o ⟨data', len⟩ e)) ∨
  (Makes (.setsockopt this.socketFd.raw l o.underlying data len.toNat)
      (this.unsafeSetsockopt l o ⟨data, len⟩ e) ∧
    Makes (.getsockopt this.socketFd.raw l o.underlying data' len.toNat)
      (this.unsafeGetsockopt l o ⟨data', len⟩ e))

theorem toSocklen_eq_iff (n : Nat) : toSocklen n = n ↔ n < UInt32.size :=
  Nat.mod_eq_iff_lt (by decide)

theorem not_setsockopt_refuses {refusal : ErrorCode × Errno → Prop} :
    ¬ Refuses refusal (this.unsafeSetsockopt l o ⟨data, len⟩ e) := by
  rw [unsafeSetsockopt_call]
  exact not_refuses_call

theorem setsockopt_makes_iff :
    Makes (.setsockopt this.socketFd.raw l o.underlying data len.toNat)
      (this.unsafeSetsockopt l o ⟨data, len⟩ e) ↔ len.toNat < UInt32.size := by
  rw [unsafeSetsockopt_call, makes_call_iff, ← toSocklen_eq_iff]
  simp

/-- The test that only this function makes keeps the conversion from changing the length. -/
theorem getsockopt_makes_iff :
    Makes (.getsockopt this.socketFd.raw l o.underlying data' len.toNat)
      (this.unsafeGetsockopt l o ⟨data', len⟩ e) ↔ len.toNat < UInt32.size := by
  by_cases hlen : len.toNat > UInt32.size - 1
  · have hrefuse : this.unsafeGetsockopt l o ⟨data', len⟩ e =
        .done ((.error (makeErrnoCode eoverflow), data'), e) := by
      unfold unsafeGetsockopt
      rw [if_pos hlen]
      rfl
    rw [hrefuse]
    exact iff_of_false (not_makes_done _) (by omega)
  · rw [this.unsafeGetsockopt_of_fits l o hlen e, makes_call_iff, ← toSocklen_eq_iff]
    simp

/-- The lengths are kept exactly up to the largest `socklen_t`. -/
theorem lengthKept_iff :
    this.LengthKept l o data data' len e ↔ len.toNat < UInt32.size := by
  constructor
  · rintro (⟨hset, -⟩ | ⟨hset, -⟩)
    · exact absurd hset (this.not_setsockopt_refuses l o data len e)
    · exact (this.setsockopt_makes_iff l o data len e).mp hset
  · exact fun hlen => .inr ⟨(this.setsockopt_makes_iff l o data len e).mpr hlen,
      (this.getsockopt_makes_iff l o data' len e).mpr hlen⟩

/-- A view of `2 ^ 32 + 5` bytes: the setter passes five, and the getter refuses. -/
theorem setsockopt_wraps_length :
    ¬ LengthKept ⟨⟨3⟩⟩ 1 .debug (.memory 4096) (.memory 4096) 4294967301 0 := by
  rintro (⟨hset, -⟩ | ⟨hset, -⟩)
  · exact not_setsockopt_refuses _ _ _ _ _ _ hset
  · exact absurd ((setsockopt_makes_iff ..).mp hset) (by decide)

end Socket

/-! ## Events -/

/-- The largest `int`. -/
def intMax : Nat := 2147483647

/-- The program passes the capacity `len`, cut to the range of `int`, or refuses it. -/
def CapacityKept (call : Int → Syscall) (len : SizeT)
    (p : Prog Syscall Response (Result Int × Errno)) : Prop :=
  Refuses (fun x => ∃ ec, x.1 = .error ec ∧ ec.isError = true) p ∨
    Makes (call (min len.toNat intMax : Nat)) p

/-- The conversion to `int` is the cut for the small lengths, and for those that it
takes to the largest `int`. -/
theorem toInt_eq_min_iff (n : Nat) :
    toInt n = (min n intMax : Nat) ↔ n ≤ intMax ∨ n % UInt32.size = intMax := by
  have hsize : UInt32.size = 4294967296 := rfl
  have hmax : intMax = 2147483647 := rfl
  rw [toInt, Int.bmod_def, hsize, hmax]
  split <;> omega

theorem capacityKept_returnCode {call : Int → Syscall} (hcall : Function.Injective call)
    (len : SizeT) (e : Errno) :
    CapacityKept call len (returnCode (call (toInt len.toNat)) e) ↔
      len.toNat ≤ intMax ∨ len.toNat % UInt32.size = intMax := by
  unfold CapacityKept
  rw [returnCode_apply, or_iff_right not_refuses_call, makes_call_iff, hcall.eq_iff,
    toInt_eq_min_iff]

namespace Epoll

theorem epollWait_injective (epfd : Int) (events : Ptr) (timeout : Int) :
    Function.Injective fun n => Syscall.epollWait epfd events n timeout := by
  intro n n' h
  cases h
  rfl

theorem epollPwait_injective (epfd : Int) (events : Ptr) (timeout : Int) (sigmask : Ptr) :
    Function.Injective fun n => Syscall.epollPwait epfd events n timeout sigmask := by
  intro n n' h
  cases h
  rfl

/-- `wait` and `pwait` pass the capacity where the conversion to `int` keeps it, or takes it
to the largest `int`. -/
theorem capacityKept_iff (this : Epoll) (events : Span) (timeout : Int) (sigmask : Ptr)
    (e : Errno) :
    (CapacityKept (fun n => .epollWait this.epollFd.raw events.data n timeout) events.length
        (this.wait events timeout e) ↔
      events.length.toNat ≤ intMax ∨ events.length.toNat % UInt32.size = intMax) ∧
    (CapacityKept (fun n => .epollPwait this.epollFd.raw events.data n timeout sigmask)
        events.length (this.pwait events timeout sigmask e) ↔
      events.length.toNat ≤ intMax ∨ events.length.toNat % UInt32.size = intMax) :=
  ⟨capacityKept_returnCode (epollWait_injective ..) events.length e,
    capacityKept_returnCode (epollPwait_injective ..) events.length e⟩

/-- A span of `2 ^ 32` events becomes a capacity of zero. -/
theorem wait_capacity_zero :
    ¬ CapacityKept (fun n => .epollWait 5 4096 n 0) 4294967296
      (wait ⟨⟨5⟩⟩ ⟨4096, 4294967296⟩ 0 0) := by
  intro h
  have hcond := (capacityKept_returnCode (epollWait_injective 5 4096 0) 4294967296 0).mp h
  exact absurd hcond (by decide)

end Epoll
