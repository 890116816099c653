import SwapCompiler.Compile.Program
import SwapCompiler.Form.Adapter
import SwapCompiler.Form.Trade

/-!
# JSON forms of requests and answers

A request names its trade and its adapters; the wrapping calldata may be
missing.  The answer is a transaction in one line.
-/

namespace SwapCompiler.Form

/-- The field names of a request. -/
def requestFields : List String :=
  ["price_route", "exchange_params", "weth_call_data"]

/-- A request. -/
def request? (reading : Json.Reading) (value : Json) : Option Request := do
  let r ← Json.record? requestFields value
  some
    { trade := ← r.required? "price_route" (trade? reading)
      adapters := ← r.required? "exchange_params" (Json.list? (adapter? reading))
      wrapCalls := ← r.optional? "weth_call_data" wrapCalls? }

/-- The form of a transaction; its value is a hexadecimal amount. -/
def ofTransaction (transaction : Transaction) : Json :=
  Json.ofMembers
    [("data", ofBytes transaction.data),
     ("to", ofAddress transaction.target),
     ("value", .text (Amount.writeHex transaction.value))]

end SwapCompiler.Form
