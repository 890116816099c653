/-!
# The exact value of a double

A finite double is a sign and a natural number times a power of two.  On that
form, questions that floating-point operations answer only approximately are
questions about natural numbers.
-/

namespace SwapCompiler.Decimal

/-- What the 64 bits of a double stand for. -/
inductive Binary
  | nan
  | infinite (negative : Bool)
  /-- The value `± mantissa * 2 ^ exponent`. -/
  | finite (negative : Bool) (mantissa : Nat) (exponent : Int)
  deriving DecidableEq, Repr

namespace Binary

/-- The highest bit of a mantissa, which is not stored. -/
def hiddenBit : Nat := 1 <<< 52

/-- One sign bit, eleven exponent bits, fifty-two fraction bits. -/
def ofBits (bits : UInt64) : Binary :=
  let field : Nat := bits.toNat / hiddenBit % 2048
  let fraction : Nat := bits.toNat % hiddenBit
  let negative : Bool := 2048 * hiddenBit ≤ bits.toNat
  if field = 2047 then
    if fraction = 0 then infinite negative else nan
  else if field = 0 then finite negative fraction (-1074)
  else finite negative (hiddenBit + fraction) ((field : Int) - 1075)

/-- The exact value of a double. -/
def ofFloat (value : Float) : Binary :=
  ofBits value.toBits

end Binary

/-- The nonnegative rational `numerator / denominator`. -/
structure Fraction where
  numerator : Nat
  denominator : Nat

namespace Fraction

/-- The rational `mantissa * 2 ^ exponent`. -/
def ofBinary (mantissa : Nat) (exponent : Int) : Fraction :=
  match exponent with
  | .ofNat shift => ⟨mantissa <<< shift, 1⟩
  | .negSucc shift => ⟨mantissa, 1 <<< (shift + 1)⟩

/-- The whole part. -/
def floor (q : Fraction) : Nat :=
  q.numerator / q.denominator

/-- The least whole number that is not smaller. -/
def ceil (q : Fraction) : Nat :=
  (q.numerator + q.denominator - 1) / q.denominator

/-- The nearest whole number, a half going up. -/
def nearest (q : Fraction) : Nat :=
  (2 * q.numerator + q.denominator) / (2 * q.denominator)

/-- The distance from a whole number. -/
def distance (q : Fraction) (whole : Nat) : Fraction :=
  let point := whole * q.denominator
  ⟨(q.numerator - point) + (point - q.numerator), q.denominator⟩

/-- Strict order by cross multiplication. -/
def lt (p q : Fraction) : Bool :=
  p.numerator * q.denominator < q.numerator * p.denominator

end Fraction

end SwapCompiler.Decimal
