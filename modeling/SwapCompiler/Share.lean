import SwapCompiler.Decimal.Binary
import SwapCompiler.Field

/-!
# Shares

Where an amount is split, each part is code behind a header of 32 bytes:

`body length (16) | source position (8) | hundredths of a percent (8)`.

The share is taken from the whole amount, from the native balance, or from the
balance of the token whose address stands at the source position of the body.
A share that is the whole needs no source.
-/

namespace SwapCompiler

/-- What a share is taken from. -/
inductive ShareSource
  | whole
  | native
  | token (token : Address)
  deriving DecidableEq

/-- The header of one part of a split amount. -/
structure Share where
  /-- Where the body holds the source token's address. -/
  position : Nat
  hundredths : Nat
  deriving DecidableEq, Repr

namespace Share

/-- The tolerance of percentages: one millionth. -/
def tolerance : Float := 1e-6

/-- The position that stands for the native balance. -/
def nativePosition : Nat := 0xeeeeeeeeeeeeeeee

/-- The largest number of a share's field. -/
def largest : Nat := Bytes.capacity 8 - 1

/-- A nonnegative value as a whole number: the nearest one if that is closer
than the tolerance, and the next larger one otherwise. -/
def roundUp (value : Decimal.Fraction) : Nat :=
  let close :=
    match Decimal.Binary.ofFloat tolerance with
    | .finite _ mantissa exponent =>
        (value.distance value.nearest).lt (Decimal.Fraction.ofBinary mantissa exponent)
    | _ => false
  if close then value.nearest else value.ceil

/-- A percentage in hundredths of a percent, rounded up; noise of floating-point
arithmetic does not count as a step.  Values outside the field are replaced by
its nearest end. -/
def hundredthsOf (percent : Float) : Nat :=
  match Decimal.Binary.ofFloat (percent * 100.0) with
  | .nan => 0
  | .infinite negative => if negative then 0 else largest
  | .finite true _ _ => 0
  | .finite false mantissa exponent =>
      min largest (roundUp (Decimal.Fraction.ofBinary mantissa exponent))

/-- The percentage is that of the whole. -/
def isWhole (percent : Float) : Bool :=
  100.0 - tolerance ≤ percent

/-- Where the share of a body's source is found. -/
def positionOf (percent : Float) (source : ShareSource) (body : Bytes) : Except Fault Nat :=
  if isWhole percent then .ok 0
  else
    match source with
    | .whole => .ok 0
    | .native => .ok nativePosition
    | .token token => locate "metadata source token" token.bytes body

/-- The header for a body, if all of it fits. -/
def of (percent : Float) (source : ShareSource) (body : Bytes) : Except Fault Share := do
  let position ← positionOf percent source body
  let _ ← field "Metadata body length" 16 body.length
  let _ ← field "Metadata source token position" 8 position
  .ok ⟨position, hundredthsOf percent⟩

/-- The header of a body. -/
def header (share : Share) (body : Bytes) : Bytes :=
  Bytes.bigEndian 16 body.length ++
    Bytes.bigEndian 8 share.position ++
    Bytes.bigEndian 8 share.hundredths

/-- A body behind its header. -/
def bytes (share : Share) (body : Bytes) : Bytes :=
  share.header body ++ body

@[simp] theorem length_header (share : Share) (body : Bytes) :
    (share.header body).length = 32 := by
  simp [header]

/-- A share of a body always fits its field. -/
theorem hundredthsOf_lt (percent : Float) : hundredthsOf percent < Bytes.capacity 8 := by
  unfold hundredthsOf
  split
  · decide
  · split <;> decide
  · decide
  · exact Nat.lt_of_le_of_lt (Nat.min_le_left _ _) (by decide)

end Share

end SwapCompiler
