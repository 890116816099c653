import SwapCompiler.Form.Basic
import SwapCompiler.Network.Basic

/-!
# JSON forms of networks

Every address of a network is required.
-/

namespace SwapCompiler.Form

/-- The field names of a network. -/
def networkFields : List String :=
  ["executor_address", "router_address", "native_token", "wrapped_native_token"]

/-- A network. -/
def network? (reading : Json.Reading) (value : Json) : Option Network := do
  let r ← Json.record? networkFields value
  some
    { executor := ← r.required? "executor_address" (address? reading)
      router := ← r.required? "router_address" (address? reading)
      native := ← r.required? "native_token" (address? reading)
      wrapped := ← r.required? "wrapped_native_token" (address? reading) }

/-- The form of a network. -/
def ofNetwork (network : Network) : Json :=
  Json.ofMembers
    [("executor_address", ofAddress network.executor),
     ("router_address", ofAddress network.router),
     ("native_token", ofAddress network.native),
     ("wrapped_native_token", ofAddress network.wrapped)]

end SwapCompiler.Form
