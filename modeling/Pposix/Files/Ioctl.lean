-- SUMMARY: `ioctl.cpp`: the six overloads of `ioctl`.
import Pposix.Core.Span
import Pposix.Files.FileDescriptor

/-! # ioctl

Each overload returns what `PPOSIX_COMMON_CALL` yields, an error code, as a
`result<ioctl_int>`. -/

namespace Ioctl

/-- `ioctl(raw_fd, ioctl_request, int)`. -/
def ofInt (fd r i : Int) : Sys (Result Int) := do
  return .ofErrorCode (← commonCall (.ioctl fd r (.int i)))

/-- `ioctl(raw_fd, ioctl_request, void *)`. -/
def ofPtr (fd r : Int) (ptr : Data) : Sys (Result Int) := do
  return .ofErrorCode (← commonCall (.ioctl fd r (.ptr ptr)))

/-- `ioctl(raw_fd, ioctl_request, const void *)`. -/
def ofCptr (fd r : Int) (ptr : Data) : Sys (Result Int) := do
  return .ofErrorCode (← commonCall (.ioctl fd r (.ptr ptr)))

/-- `ioctl(raw_fd, ioctl_request, std::nullptr_t)`. -/
def ofNullptr (fd r : Int) : Sys (Result Int) :=
  let ptr : Data := .memory 0
  ofPtr fd r ptr

def ofView (fd r : Int) (val : AnyView) : Sys (Result Int) := ofPtr fd r val.data

def ofCview (fd r : Int) (val : AnyCview) : Sys (Result Int) := ofCptr fd r val.data

end Ioctl
