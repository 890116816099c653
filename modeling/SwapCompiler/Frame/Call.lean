import SwapCompiler.Frame.Basic

/-!
# Exchange calls

The frame of an exchange call is its adapter's calldata plus what the flag
needs patched.  If a balance check needs the bought token's word and the
calldata has none, the word is appended; the amount word must be there already.
-/

namespace SwapCompiler

/-- Everything that the frame of one exchange call depends on. -/
structure Call where
  target : Address
  calldata : Bytes
  sourceAmount : Nat
  /-- The token that the call delivers. -/
  received : Address
  flag : Flag
  opcode : Opcode
  /-- The calldata already holds the word of the received token. -/
  namesReceived : Bool
  /-- An enclosing branch looks for that word in this frame. -/
  exposeReceived : Bool
  returnPosition : UInt8
  deriving DecidableEq

namespace Call

/-- The word of the received token must stand in the body. -/
def needsToken (call : Call) : Bool :=
  call.flag.checksToken || call.exposeReceived

/-- The calldata, with the word of the received token appended if it is needed
and not there. -/
def body (call : Call) : Bytes :=
  if call.needsToken && !call.namesReceived then call.calldata ++ call.received.word
  else call.calldata

/-- Where the word of the received token stands; zero if the flag does not read
it.  A word needed only by an enclosing branch must be there all the same. -/
def tokenOffset (call : Call) : Except Fault Nat :=
  if call.needsToken then do
    let index ← locate "destination token" call.received.word call.body
    .ok (if call.flag.checksToken then index else 0)
  else .ok 0

/-- Where the amount is patched in; zero if the flag does not patch it. -/
def amountOffset (call : Call) : Except Fault Nat :=
  if call.flag.patches then do
    let word ← amountWord call.sourceAmount
    locate "source amount" word call.body
  else .ok 0

/-- The frame of a call. -/
def frame (call : Call) : Except Fault Frame := do
  let tokenOffset ← call.tokenOffset
  let amountOffset ← call.amountOffset
  .ok
    { target := call.target
      amountOffset := amountOffset
      tokenOffset := tokenOffset
      returnPosition := call.returnPosition
      opcode := call.opcode
      flag := call.flag
      body := call.body }

end Call

end SwapCompiler
