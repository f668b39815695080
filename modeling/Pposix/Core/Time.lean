-- SUMMARY: `duration.hpp` and `time.hpp`: durations, and the `timespec` that is made of them.
import Pposix.Os.Syscall

/-! # Durations -/

/-- `seconds`: a `std::chrono::duration` that counts with an `int`. -/
abbrev Seconds := Int32

abbrev Microseconds := Int32

/-- `nanoseconds` counts with a `long`. -/
abbrev Nanoseconds := Int64

namespace Timespec

/-- The constructor from `seconds`. -/
def ofSeconds (s : Seconds) : Timespec := ⟨s.toInt, 0⟩

/-- The constructor from `seconds` and `nanoseconds`. -/
def make (s : Seconds) (ns : Nanoseconds) : Timespec := ⟨s.toInt, ns.toInt⟩

end Timespec
