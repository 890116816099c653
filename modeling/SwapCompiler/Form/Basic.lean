import SwapCompiler.Address
import SwapCompiler.Amount
import SwapCompiler.Chain
import SwapCompiler.Adapter
import SwapCompiler.Decimal.Shortest
import SwapCompiler.Json.Diagnosis
import SwapCompiler.Json.Record

/-!
# JSON forms of the basic types

* Bytes are hexadecimal text, or an array of numbers below 256; an address is
  twenty of them.  Behind the twentieth number of an address its reader looks
  for one more; an item there that is none does no harm, if the reader can get
  past it.
* An amount is text.
* A name is text, or the one member of an object, with the value `null`.

Writing takes the first form of each, in lower case and with the mark `0x`.
-/

namespace SwapCompiler.Form

/-- Bytes, as text or as an array. -/
def bytes? : Json → Option Bytes
  | .string content => content.bind Bytes.Hex.read?
  | .array items => items.mapM Json.byte?
  | _ => none

/-- The form of bytes. -/
def ofBytes (bytes : Bytes) : Json :=
  .text (Bytes.Hex.writeMarked bytes)

/-- The bytes of an address: those of a text, or the first twenty of an array
that holds nothing else, or one item that is passed over. -/
def addressBytes? (reading : Json.Reading) : Json → Option Bytes
  | .array items =>
      match items.drop 20 with
      | [] => items.mapM Json.byte?
      | [extra] => if reading.passes extra then (items.take 20).mapM Json.byte? else none
      | _ => none
  | value => bytes? value

/-- An address: exactly twenty bytes. -/
def address? (reading : Json.Reading) (value : Json) : Option Address :=
  (addressBytes? reading value).bind Address.ofBytes?

/-- The form of an address. -/
def ofAddress (address : Address) : Json :=
  ofBytes address.bytes

/-- An amount, as text. -/
def amount? (value : Json) : Option Nat :=
  value.text?.bind fun text => (Amount.read text).toOption

/-- What is reported of a text that is no amount. -/
def amountDiagnosis (cause : Amount.Unreadable) : Json.Diagnosis :=
  .ofText cause.message

/-- The form of an amount. -/
def ofAmount (amount : Nat) : Json :=
  .text (Amount.write amount)

/-- The form of a percentage: the shortest number that reads back, with a
point. -/
def ofPercent (percent : Float) : Json :=
  match Decimal.ofFloat? percent with
  | some d => .number (.scientific d.withPlace)
  | none => .null

/-- One of several names. -/
def name? {α : Type} (ofName? : String → Option α) : Json → Option α
  | .string content => content.bind ofName?
  | .object [(some name, .null)] => ofName? name
  | _ => none

/-- A chain, by its name. -/
def chain? (value : Json) : Option Chain :=
  name? Chain.ofName? value

/-- The form of a chain. -/
def ofChain (chain : Chain) : Json :=
  .text chain.name

/-- An opcode, by its name. -/
def opcode? (value : Json) : Option Opcode :=
  name? Opcode.ofName? value

/-- The form of an opcode. -/
def ofOpcode (opcode : Opcode) : Json :=
  .text opcode.name

/-- The form of something that may be missing. -/
def ofOption {α : Type} (form : α → Json) : Option α → Json
  | some value => form value
  | none => .null

end SwapCompiler.Form
