import SwapCompiler.Bytes.Hex

/-!
# Numerals of any size

A numeral is an optional plus sign and then digits of its base, of either case.
Underscores may separate digits but not stand before the first one.
-/

namespace SwapCompiler.Text

/-- Why a text is no numeral. -/
inductive NumeralFault
  | empty
  | invalidDigit
  deriving DecidableEq, Repr

/-- The cause in words. -/
def NumeralFault.message : NumeralFault → String
  | .empty => "cannot parse integer from empty string"
  | .invalidDigit => "invalid digit found in string"

/-- The value of a character as a digit of the base. -/
def digit? (base : Nat) (c : Char) : Option Nat :=
  (Bytes.Hex.digitValue? c).filter (· < base)

/-- A numeral without its plus sign.  A sign before another sign is not taken
away: the two stay, and neither is a digit. -/
def withoutPlus : List Char → List Char
  | '+' :: '+' :: rest => '+' :: '+' :: rest
  | '+' :: rest => rest
  | text => text

/-- Appends one digit to a number; an underscore appends nothing. -/
def appendDigit (base : Nat) (value : Nat) (c : Char) : Except NumeralFault Nat :=
  if c = '_' then .ok value
  else
    match digit? base c with
    | some digit => .ok (value * base + digit)
    | none => .error .invalidDigit

/-- The value of a numeral. -/
def numeral (base : Nat) (text : List Char) : Except NumeralFault Nat :=
  match withoutPlus text with
  | [] => .error .empty
  | '_' :: _ => .error .invalidDigit
  | digits => digits.foldlM (appendDigit base) 0

end SwapCompiler.Text
