/-!
# Faults and failures

A `Fault` is a mistake of the computation itself: a division by zero, a word that overflows. An
error is an outcome the domain knows about. `Failure` keeps the two apart, so that "no fault can
happen" is a statement about a function.
-/

namespace BootImage

/-- Ways a computation can break instead of answering. -/
inductive Fault
  /-- A division by zero, or a split into pieces of length zero. -/
  | divisionByZero
  /-- A sum or product that does not fit a word. -/
  | overflow
  /-- A slice that reaches past the end of its buffer. -/
  | outOfRange
  /-- A buffer longer than any buffer may be. -/
  | capacity
deriving DecidableEq, Repr

/-- The fault in words. -/
def Fault.message : Fault → String
  | .divisionByZero => "division by zero"
  | .overflow => "number overflow"
  | .outOfRange => "index out of range"
  | .capacity => "capacity overflow"

/-- Why there is no result: a fault, or an error of the domain. -/
inductive Failure (ε : Type)
  | fault (cause : Fault)
  | error (cause : ε)
deriving DecidableEq, Repr

namespace Failure

/-- Changes the domain error and keeps faults. -/
def map {ε ε' : Type} (f : ε → ε') : Failure ε → Failure ε'
  | .fault cause => .fault cause
  | .error cause => .error (f cause)

end Failure

/-- A computation that can only fault runs inside one that can also fail. -/
instance {ε : Type} : MonadLift (Except Fault) (Except (Failure ε)) where
  monadLift x := x.mapError .fault

/-- A computation that cannot fault runs inside one that can. -/
instance {ε : Type} : MonadLift (Except ε) (Except (Failure ε)) where
  monadLift x := x.mapError .error

end BootImage
