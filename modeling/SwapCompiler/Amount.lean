import SwapCompiler.Decimal.Basic
import SwapCompiler.Text.Blank
import SwapCompiler.Text.Numeral

/-!
# Token amounts as text

Amounts are natural numbers of any size.  They are written in decimal, and read
in decimal or, after `0x` or `0X`, in hexadecimal; the mark alone is zero.
Blanks around an amount do not count.
-/

namespace SwapCompiler.Amount

/-- A text that is no amount, without the blanks around it. -/
inductive Unreadable
  | hexadecimal (text : String)
  | decimal (text : String) (cause : Text.NumeralFault)
  deriving DecidableEq, Repr

/-- The complaint about a text. -/
def Unreadable.message : Unreadable → String
  | .hexadecimal text => "Invalid hex amount: " ++ text
  | .decimal text cause => "Invalid amount " ++ text ++ ": " ++ cause.message

/-- What follows the mark of a hexadecimal amount. -/
def afterMark? : List Char → Option (List Char)
  | '0' :: 'x' :: digits => some digits
  | '0' :: 'X' :: digits => some digits
  | _ => none

/-- The amount that a text denotes. -/
def read (text : String) : Except Unreadable Nat :=
  let bare := Text.trim text.toList
  match afterMark? bare with
  | some [] => .ok 0
  | some digits =>
      (Text.numeral 16 digits).mapError fun _ => .hexadecimal (String.ofList bare)
  | none => (Text.numeral 10 bare).mapError (.decimal (String.ofList bare))

/-- An amount in decimal. -/
def write (amount : Nat) : String :=
  String.ofList (Decimal.digits amount)

/-- An amount in lower-case hexadecimal, with its mark and no leading zeros. -/
def writeHex (amount : Nat) : String :=
  "0x" ++ String.ofList (Nat.toDigits 16 amount)

end SwapCompiler.Amount
