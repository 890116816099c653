import SwapCompiler.Chain
import SwapCompiler.Network.Basic

/-!
# Built-in networks

One network for each known chain.  The router and the placeholder of the native
asset are the same everywhere; the first chain's executor is its router.
-/

namespace SwapCompiler.Network

/-- The router of every built-in network. -/
def sharedRouter : Address :=
  Address.ofNat 0x6a000f20005980200259b80c5102003040001068

/-- The executor of every built-in network but the first. -/
def sharedExecutor : Address :=
  Address.ofNat 0x000010036c0190e009a000d0fc3541100a07380a

/-- The placeholder of the native asset in every built-in network. -/
def sharedNative : Address :=
  Address.ofNat 0xeeeeeeeeeeeeeeeeeeeeeeeeeeeeeeeeeeeeeeee

/-- The wrapped native token of a chain. -/
def wrappedOf : Chain → Address
  | .ethereum => Address.ofNat 0xc02aaa39b223fe8d0a0e5c4f27ead9083c756cc2
  | .optimism => Address.ofNat 0x4200000000000000000000000000000000000006
  | .bsc => Address.ofNat 0xbb4cdb9cbd36b01bd1cbaebf2de08d9173bc095c
  | .polygon => Address.ofNat 0x0d500b1d8e8ef31e21c99d1db9a6444d3adf1270
  | .base => Address.ofNat 0x4200000000000000000000000000000000000006
  | .arbitrum => Address.ofNat 0x82af49447d8a07e3bd95bd0d56f35241523fbab1
  | .avalanche => Address.ofNat 0xb31f66aa3c1e785363f0875a1b74e27b85fd66c7

/-- The built-in network of a chain. -/
def builtin (chain : Chain) : Network :=
  { executor := if chain = .ethereum then sharedRouter else sharedExecutor
    router := sharedRouter
    native := sharedNative
    wrapped := wrappedOf chain }

end SwapCompiler.Network
