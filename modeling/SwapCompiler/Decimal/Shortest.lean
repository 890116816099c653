import SwapCompiler.Decimal.Basic
import SwapCompiler.Decimal.Binary

/-!
# The fewest digits that identify a double

Many decimals round to the same double.  The one written is on the coarsest
power-of-ten grid that has a point among them; of two such points it is the
nearer, and the upper one at a tie.

* `Interval` is the set of reals that round to a double, scaled so that its
  ends are whole numbers times one power of two.
* `onGrid?` tests the two neighbours of the value on one grid.
* `ofFinite` takes the grids from coarse to fine.
-/

namespace SwapCompiler.Decimal

/-- The reals that round to `middle`, all in units of `2 ^ exponent`. -/
structure Interval where
  lower : Nat
  middle : Nat
  upper : Nat
  exponent : Int
  /-- The two ends round to the value as well. -/
  closed : Bool

namespace Interval

/-- Half a step of the binary grid on either side; below a power of two the
grid is twice as fine.  Ties go to even mantissas, so the ends belong exactly
to those. -/
def ofFinite (mantissa : Nat) (exponent : Int) : Interval :=
  let below := if mantissa = Binary.hiddenBit ∧ -1074 < exponent then 1 else 2
  { lower := 4 * mantissa - below
    middle := 4 * mantissa
    upper := 4 * mantissa + 2
    exponent := exponent - 2
    closed := mantissa % 2 = 0 }

end Interval

/-- The value's lower or upper neighbour on the grid of multiples of
`10 ^ place`, if it rounds to the value; the nearer one if both do. -/
def onGrid? (i : Interval) (place : Int) : Option Nat :=
  -- one grid step is `step` and one unit of the interval is `unit`
  let step := tens place.toNat <<< (-i.exponent).toNat
  let unit := tens (-place).toNat <<< i.exponent.toNat
  let low := i.middle * unit / step
  let inside (whole : Nat) : Bool :=
    if i.closed then i.lower * unit ≤ whole * step ∧ whole * step ≤ i.upper * unit
    else i.lower * unit < whole * step ∧ whole * step < i.upper * unit
  match inside low, inside (low + 1) with
  | true, true =>
      if i.middle * unit - low * step < (low + 1) * step - i.middle * unit then some low
      else some (low + 1)
  | true, false => some low
  | false, true => some (low + 1)
  | false, false => none

/-- The places of the grids tried, from coarse to fine: every double has a point
of its own on one of them. -/
def places : List Int :=
  (List.range 650).map fun (i : Nat) => 309 - (i : Int)

/-- The shortest decimal of a finite double. -/
def ofFinite (negative : Bool) (mantissa : Nat) (exponent : Int) : Decimal :=
  if mantissa = 0 then ⟨negative, 0, 0⟩
  else
    let interval := Interval.ofFinite mantissa exponent
    match places.findSome? fun place => (onGrid? interval place).map (·, place) with
    | some (coefficient, place) => ⟨negative, coefficient, place⟩
    | none => ⟨negative, 0, 0⟩

/-- The shortest decimal of a double, if it is finite. -/
def ofFloat? (value : Float) : Option Decimal :=
  match Binary.ofFloat value with
  | .finite negative mantissa exponent => some (ofFinite negative mantissa exponent)
  | _ => none

/-- A double in positional notation with the fewest digits that identify it. -/
def floatText (value : Float) : String :=
  match Binary.ofFloat value with
  | .nan => "NaN"
  | .infinite negative => if negative then "-inf" else "inf"
  | .finite negative mantissa exponent => (ofFinite negative mantissa exponent).text

end SwapCompiler.Decimal
