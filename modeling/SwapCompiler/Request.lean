import SwapCompiler.Adapter
import SwapCompiler.Trade

/-!
# Requests

What a caller hands over: a trade, the adapters of its fills in route, hop,
fill order, and the calldata for wrapping and unwrapping that it may need.
-/

namespace SwapCompiler

/-- A trade with the data that its compilation uses. -/
structure Request where
  trade : Trade
  adapters : List Adapter
  wrapCalls : Option WrapCalls
  deriving DecidableEq

end SwapCompiler
