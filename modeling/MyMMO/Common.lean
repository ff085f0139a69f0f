/-
# How the program stops

`MY_ASSERT`, `RT_ASSERT` and `RINGBUFFER_ASSERT` end in `__debugbreak`, and an exception that no
function on the stack catches ends in `std::terminate`; a write past the end of a local array is
undefined. A modelled function that can reach one of them returns `Except Stop`: `.error` is the
process stopped, `.ok` the state it goes on with.
-/
import Mathlib.Tactic

namespace MyMMO

/-- The bits of `MyRingBuffer::mBFail`. -/
inductive RingBufferFailBit
  | bufferFull
  | bufferEmpty
  | argmentSizeInvalid
  deriving DecidableEq, Repr

/-- `MessageException::eErrorType`. -/
inductive MessageErrorType
  | hasNotData
  | notEnoughSpace
  deriving DecidableEq, Repr

/-- What stops the process. -/
inductive Stop
  | ringBufferAssert (bit : RingBufferFailBit)
  | messageException (type : MessageErrorType)
  | myAssert (text : String)
  | rtAssert
  | debugBreak
  | overrun
  deriving DecidableEq, Repr

/-- `MY_ASSERT(x, str)`. -/
def myAssert (x : Bool) (str : String) : Except Stop Unit :=
  if x then .ok () else .error (.myAssert str)

/-- `RT_ASSERT(x)`. -/
def rtAssert (x : Bool) : Except Stop Unit :=
  if x then .ok () else .error .rtAssert

theorem myAssert_true {x : Bool} (h : x = true) (str : String) : myAssert x str = .ok () := by
  rw [myAssert, if_pos h]

theorem rtAssert_true {x : Bool} (h : x = true) : rtAssert x = .ok () := by
  rw [rtAssert, if_pos h]

theorem myAssert_ok {x : Bool} {str : String} {u : Unit} (h : myAssert x str = .ok u) :
    x = true := by
  unfold myAssert at h
  split_ifs at h with hx
  exact hx

end MyMMO
