import SwapCompiler.Bytes.Hex
import SwapCompiler.Keccak

/-!
# Addresses

An address is twenty bytes.  As a call argument it fills a 32-byte word from
the right.  Its display form marks some of its hexadecimal letters by upper
case, so that a mistyped address is likely to show.
-/

namespace SwapCompiler

/-- The address of an account, a contract or a token. -/
structure Address where
  bytes : Bytes
  length_bytes : bytes.length = 20
  deriving DecidableEq

namespace Address

/-- Twenty bytes as an address. -/
def ofBytes? (bytes : Bytes) : Option Address :=
  if h : bytes.length = 20 then some ⟨bytes, h⟩ else none

/-- The address whose bytes spell a number. -/
def ofNat (value : Nat) : Address :=
  ⟨Bytes.bigEndian 20 value, Bytes.length_bigEndian 20 value⟩

/-- The address of zeros, which belongs to nobody. -/
def zero : Address :=
  ofNat 0

/-- The address as a 32-byte call argument: zeros, then its bytes. -/
def word (address : Address) : Bytes :=
  List.replicate 12 0 ++ address.bytes

/-- Lower-case hexadecimal with its mark. -/
def hex (address : Address) : String :=
  Bytes.Hex.writeMarked address.bytes

/-- The display form: a letter is upper-case exactly if the digit at its place
in the digest of the lower-case digits is eight or more. -/
def display (address : Address) : String :=
  let digits := Bytes.Hex.encode address.bytes
  let digest := Bytes.Hex.encode (Keccak.digest (digits.map fun c => UInt8.ofNat c.toNat))
  "0x" ++ String.ofList
    (List.zipWith (fun c mark => if '8' ≤ mark then c.toUpper else c) digits digest)

@[simp] theorem length_word (address : Address) : address.word.length = 32 := by
  simp [word, address.length_bytes]

theorem ofBytes?_bytes (address : Address) : ofBytes? address.bytes = some address := by
  simp [ofBytes?, address.length_bytes]

end Address

end SwapCompiler
