import SwapCompiler.Address

/-!
# Networks

The addresses that a compilation needs to know of one chain.
-/

namespace SwapCompiler

/-- The fixed addresses of a chain. -/
structure Network where
  /-- The interpreter contract; branches call it again. -/
  executor : Address
  /-- The recipient of tokens that are bought and sent on. -/
  router : Address
  /-- The placeholder for the native asset. -/
  native : Address
  /-- The token contract that wraps the native asset. -/
  wrapped : Address
  deriving DecidableEq

namespace Network

/-- The token is the native asset. -/
def isNative (network : Network) (token : Address) : Bool :=
  token = network.native

theorem isNative_eq_false_iff {network : Network} {token : Address} :
    network.isNative token = false ↔ token ≠ network.native :=
  decide_eq_false_iff_not

end Network

end SwapCompiler
