import SwapCompiler.Bytes.BigEndian

/-!
# Bytes as hexadecimal text

Two digits a byte, high digit first.  Writing uses lower-case letters; reading
takes either case and needs an even count of digits.  `read?` also takes text
with the mark `0x` or `0X` in front.
-/

namespace SwapCompiler.Bytes.Hex

/-- The lower-case digit of a number below sixteen. -/
def digit (value : Nat) : Char :=
  if value < 10 then Char.ofNat (48 + value) else Char.ofNat (87 + value)

/-- The value of a digit of either case. -/
def digitValue? (c : Char) : Option Nat :=
  if '0' ≤ c ∧ c ≤ '9' then some (c.toNat - 48)
  else if 'a' ≤ c ∧ c ≤ 'f' then some (c.toNat - 87)
  else if 'A' ≤ c ∧ c ≤ 'F' then some (c.toNat - 55)
  else none

/-- Two digits for each byte. -/
def encode : Bytes → List Char
  | [] => []
  | byte :: rest => digit (byte.toNat / 16) :: digit (byte.toNat % 16) :: encode rest

/-- Reads digits in pairs; refuses a digit left alone and any other character. -/
def decode : List Char → Option Bytes
  | [] => some []
  | [_] => none
  | high :: low :: rest => do
      let h ← digitValue? high
      let l ← digitValue? low
      let bytes ← decode rest
      some (UInt8.ofNat (16 * h + l) :: bytes)

/-- Text without its `0x` or `0X` mark, if it has one. -/
def unmarked : List Char → List Char
  | '0' :: 'x' :: rest => rest
  | '0' :: 'X' :: rest => rest
  | text => text

/-- Digits in pairs, with or without the mark. -/
def read? (text : String) : Option Bytes :=
  decode (unmarked text.toList)

/-- Lower-case digits without the mark. -/
def write (bytes : Bytes) : String :=
  String.ofList (encode bytes)

/-- Lower-case digits after the mark `0x`. -/
def writeMarked (bytes : Bytes) : String :=
  "0x" ++ write bytes

/-- A written digit is read back, and so is a pair of them. -/
theorem digitValue?_digit : ∀ value < 16, digitValue? (digit value) = some value := by
  decide

theorem decode_encode (bytes : Bytes) : decode (encode bytes) = some bytes := by
  induction bytes with
  | nil => rfl
  | cons byte rest ih =>
      have hlt : byte.toNat < 256 := byte.toNat_lt
      have hhigh := digitValue?_digit (byte.toNat / 16) (by omega)
      have hlow := digitValue?_digit (byte.toNat % 16) (by omega)
      have hbyte : UInt8.ofNat (16 * (byte.toNat / 16) + byte.toNat % 16) = byte := by
        rw [Nat.div_add_mod]
        exact UInt8.ofNat_toNat
      simp only [encode, decode, hhigh, hlow, ih, Option.bind_eq_bind, Option.bind_some, hbyte]

end SwapCompiler.Bytes.Hex
