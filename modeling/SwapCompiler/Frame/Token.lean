import SwapCompiler.Frame.Call
import SwapCompiler.Keccak

/-!
# Calls on token contracts

The frames that the compiler adds around exchange calls: allowances, transfers,
wrapping and unwrapping of the native asset, and the frame that sends the whole
native balance on.
-/

namespace SwapCompiler

/-- The first four bytes of the digest of a signature, then the arguments.  If
there is more than one word of arguments and the first is the number 32, it is
the head of a single dynamic argument and is left out. -/
def callData (selector arguments : Bytes) : Bytes :=
  selector ++
    if 32 < arguments.length ∧ arguments.take 32 = Bytes.word 32 then arguments.drop 32
    else arguments

/-- The selector of a function. -/
def selector (signature : String) : Bytes :=
  (Keccak.digest signature.toUTF8.toList).take 4

/-- The selector of `approve(address,uint256)`. -/
def approveSelector : Bytes := [0x09, 0x5e, 0xa7, 0xb3]

/-- The selector of `transfer(address,uint256)`. -/
def transferSelector : Bytes := [0xa9, 0x05, 0x9c, 0xbb]

namespace Frame

/-- A call of a function with an address and an amount on a token, with the
running amount patched in. -/
def ofAmountCall (selector : Bytes) (token party : Address) (amount : Nat) :
    Except Fault Frame := do
  let word ← argumentWord amount
  Call.frame
    { target := token
      calldata := callData selector (party.word ++ word)
      sourceAmount := amount
      received := Address.zero
      flag := ⟨.data, .nothing⟩
      opcode := .plain
      namesReceived := false
      exposeReceived := false
      returnPosition := 0 }

/-- Allows a spender to take an amount of a token. -/
def approve (token spender : Address) (amount : Nat) : Except Fault Frame :=
  ofAmountCall approveSelector token spender amount

/-- Sends an amount of a token to a recipient. -/
def transfer (token recipient : Address) (amount : Nat) : Except Fault Frame :=
  ofAmountCall transferSelector token recipient amount

/-- A call with fixed calldata on a token contract. -/
def ofCalldata (token : Address) (flag : Flag) (amountOffset : Nat) (calldata : Bytes) : Frame :=
  { target := token
    amountOffset := amountOffset
    tokenOffset := 0
    returnPosition := 0
    opcode := .plain
    flag := flag
    body := calldata }

/-- Sends the running amount as native value to the wrapped token. -/
def wrap (wrapped : Address) (deposit : Bytes) : Frame :=
  ofCalldata wrapped ⟨.native, .nothing⟩ 0 deposit

/-- The place of the amount word in withdraw calldata, right after the
selector. -/
def withdrawAmountOffset : Nat := 4

/-- Takes the running amount of the wrapped token back as native asset. -/
def unwrap (wrapped : Address) (withdraw : Bytes) (flag : Flag) : Except Fault Frame :=
  if withdraw.length < withdrawAmountOffset + 32 then
    .error (.withdrawTooShort withdraw.length)
  else
    .ok (ofCalldata wrapped flag (if flag.patches then withdrawAmountOffset else 0) withdraw)

/-- The flag of an unwrap whose result is sent on. -/
def unwrapFlag : Flag := ⟨.data, .nothing⟩

/-- The flag of an unwrap between two hops: the next hop spends the native
balance. -/
def midRouteUnwrapFlag : Flag := ⟨.data, .native⟩

/-- Sends the whole native balance on. -/
def sendNative : Frame :=
  { target := Address.zero
    amountOffset := 0
    tokenOffset := 0
    returnPosition := 0
    opcode := .sendNative
    flag := ⟨.nothing, .nothing⟩
    body := [] }

end Frame

end SwapCompiler
