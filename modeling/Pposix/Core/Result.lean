-- SUMMARY: `result.hpp`: a value or an error code.
import Pposix.Core.Errno

/-!
# Results

`result<T>` is a `std::variant<T, std::error_code>`. Each of its implicit
constructors selects one alternative: one from a `std::error_code`, one from a
value. The type of a `return` expression decides which one runs, so a function that
returns an error code always builds the error alternative, also when the code is
the success code.
-/

inductive Result (α : Type) where
  | error (ec : ErrorCode)
  | value (a : α)
  deriving DecidableEq, Repr

namespace Result

variable {α β : Type}

/-- `result(std::error_code)`. -/
def ofErrorCode (ec : ErrorCode) : Result α := .error ec

/-- `result(const T &)` and `result(T &&)`. -/
def ofValue (a : α) : Result α := .value a

def hasError : Result α → Bool
  | .error _ => true
  | .value _ => false

def hasValue (r : Result α) : Bool := !r.hasError

end Result

/-- `result_map`, with a function that runs code of its own. -/
def resultMap {α β : Type} (r : Result α) (func : α → Sys (Result β)) : Sys (Result β) :=
  match r with
  | .value a => func a
  | .error ec => return .ofErrorCode ec
