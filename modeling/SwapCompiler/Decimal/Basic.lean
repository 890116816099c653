/-!
# Decimal numbers

A decimal number is a sign, a coefficient and a power of ten.  Its text writes
every place and no exponent, with a point exactly if the power is negative;
`withPlace` makes it so without changing the number.

`toFloat?` gives the nearest double, and nothing when that is infinite.
-/

namespace SwapCompiler

/-- The number `± coefficient * 10 ^ exponent`. -/
structure Decimal where
  negative : Bool
  coefficient : Nat
  exponent : Int
  deriving DecidableEq, Repr

namespace Decimal

/-- A power of ten. -/
def tens (places : Nat) : Nat :=
  Nat.pow 10 places

/-- The digits of a natural number in base ten, most significant first. -/
def digits (value : Nat) : List Char :=
  Nat.toDigits 10 value

/-- Digits with a point before the last `places` of them and at least one digit
before the point. -/
def pointed (places : Nat) (ds : List Char) : List Char :=
  let filled := List.replicate (places + 1 - ds.length) '0' ++ ds
  filled.take (filled.length - places) ++ '.' :: filled.drop (filled.length - places)

/-- The magnitude in positional notation. -/
def magnitude (d : Decimal) : List Char :=
  match d.exponent with
  | .ofNat zeros => digits d.coefficient ++ List.replicate zeros '0'
  | .negSucc places => pointed (places + 1) (digits d.coefficient)

/-- Positional notation: no exponent, no point after a whole number. -/
def text (d : Decimal) : String :=
  String.ofList ((if d.negative then ['-'] else []) ++ d.magnitude)

/-- The same number with at least one place after the point. -/
def withPlace (d : Decimal) : Decimal :=
  match d.exponent with
  | .ofNat zeros => { d with coefficient := d.coefficient * tens (zeros + 1), exponent := -1 }
  | .negSucc _ => d

/-- The nearest double, ties to even; nothing if it is infinite.  Numbers whose
leading digit stands far outside the range of doubles are settled by their
size alone. -/
def toFloat? (d : Decimal) : Option Float :=
  let leading := d.exponent + (digits d.coefficient).length
  let magnitude? :=
    if d.coefficient = 0 ∨ leading < -400 then some 0.0
    else if leading > 400 then none
    else
      let value := Float.ofScientific d.coefficient (d.exponent < 0) d.exponent.natAbs
      if value < 1.0 / 0.0 then some value else none
  magnitude?.map fun value => if d.negative then -value else value

end Decimal

end SwapCompiler
