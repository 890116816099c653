import SwapCompiler.Address

/-!
# Exchange adapters

For every fill of a trade an adapter says which contract to call, with which
calldata, and what that call does beyond selling and buying.
-/

namespace SwapCompiler

/-- The handling that a frame asks of the interpreter. -/
inductive Opcode
  | plain
  | balancerV2
  | sendNative
  | makerPsm
  | swaapV2
  | verticalBranch
  | augustusRfq
  deriving DecidableEq, Repr

namespace Opcode

/-- Every opcode. -/
def all : List Opcode :=
  [plain, balancerV2, sendNative, makerPsm, swaapV2, verticalBranch, augustusRfq]

/-- The opcode's byte. -/
def code : Opcode → UInt8
  | plain => 0
  | balancerV2 => 1
  | sendNative => 2
  | makerPsm => 3
  | swaapV2 => 4
  | verticalBranch => 5
  | augustusRfq => 6

/-- The opcode's name in requests. -/
def name : Opcode → String
  | plain => "default"
  | balancerV2 => "swap_on_balancer_v2"
  | sendNative => "send_native"
  | makerPsm => "swap_on_maker_psm"
  | swaapV2 => "swap_on_swaap_v2_single"
  | verticalBranch => "execute_vertical_branching"
  | augustusRfq => "swap_on_augustus_rfq"

/-- The opcode with exactly this name. -/
def ofName? (text : String) : Option Opcode :=
  all.find? fun opcode => opcode.name = text

theorem mem_all (opcode : Opcode) : opcode ∈ all := by
  cases opcode <;> decide

/-- An opcode's name names it. -/
theorem ofName?_name (opcode : Opcode) : ofName? opcode.name = some opcode := by
  cases opcode <;> decide

end Opcode

/-- What the adapter of one fill contributes. -/
structure Adapter where
  /-- The contract to call. -/
  target : Address
  /-- The call, with the sold amount in it as a literal word. -/
  calldata : Bytes
  /-- The exchange deals with the wrapped native token only. -/
  wrapsNative : Bool
  /-- The exchange sends what is bought straight to the final recipient. -/
  paysRecipient : Bool
  /-- The calldata holds the bought token as a literal word. -/
  namesDestination : Bool
  special : Option Opcode
  /-- The contract that takes the sold token, if it is not the target. -/
  spender : Option Address
  /-- The place of the returned amount. -/
  returnPosition : Option UInt8
  deriving DecidableEq

namespace Adapter

/-- The opcode of the call; none given is the plain one. -/
def opcode (adapter : Adapter) : Opcode :=
  adapter.special.getD .plain

/-- The call needs handling of its own. -/
def isSpecial (adapter : Adapter) : Bool :=
  adapter.opcode != .plain

/-- The contract that must be allowed to take the sold token. -/
def allowee (adapter : Adapter) : Address :=
  adapter.spender.getD adapter.target

end Adapter

/-- Calldata for the wrapped native token, given when a trade may need it. -/
structure WrapCalls where
  deposit : Option Bytes
  /-- The amount word comes right after the selector. -/
  withdraw : Option Bytes
  deriving DecidableEq

end SwapCompiler
