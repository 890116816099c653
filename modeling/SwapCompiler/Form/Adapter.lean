import SwapCompiler.Form.Basic

/-!
# JSON forms of adapters and wrapping calldata

An adapter's target and calldata are required, its truth values are false when
absent, and its other fields may be missing.  Both fields of the wrapping
calldata may be missing.  Writing gives every field.
-/

namespace SwapCompiler.Form

/-- The field names of an adapter. -/
def adapterFields : List String :=
  ["target_exchange", "exchange_data", "need_wrap_native", "dex_func_has_recipient",
   "dex_func_has_dest_token", "special_dex_flag", "spender", "return_amount_pos"]

/-- An adapter. -/
def adapter? (reading : Json.Reading) (value : Json) : Option Adapter := do
  let r ← Json.record? adapterFields value
  some
    { target := ← r.required? "target_exchange" (address? reading)
      calldata := ← r.required? "exchange_data" bytes?
      wrapsNative := ← r.flag? "need_wrap_native"
      paysRecipient := ← r.flag? "dex_func_has_recipient"
      namesDestination := ← r.flag? "dex_func_has_dest_token"
      special := ← r.optional? "special_dex_flag" opcode?
      spender := ← r.optional? "spender" (address? reading)
      returnPosition := ← r.optional? "return_amount_pos" Json.byte? }

/-- The form of an adapter. -/
def ofAdapter (adapter : Adapter) : Json :=
  Json.ofMembers
    [("target_exchange", ofAddress adapter.target),
     ("exchange_data", ofBytes adapter.calldata),
     ("need_wrap_native", .bool adapter.wrapsNative),
     ("dex_func_has_recipient", .bool adapter.paysRecipient),
     ("dex_func_has_dest_token", .bool adapter.namesDestination),
     ("special_dex_flag", ofOption ofOpcode adapter.special),
     ("spender", ofOption ofAddress adapter.spender),
     ("return_amount_pos", ofOption (fun byte => .nat byte.toNat) adapter.returnPosition)]

/-- The field names of wrapping calldata. -/
def wrapCallsFields : List String :=
  ["deposit", "withdraw"]

/-- Wrapping calldata. -/
def wrapCalls? (value : Json) : Option WrapCalls := do
  let r ← Json.record? wrapCallsFields value
  some
    { deposit := ← r.optional? "deposit" bytes?
      withdraw := ← r.optional? "withdraw" bytes? }

/-- The form of wrapping calldata. -/
def ofWrapCalls (calls : WrapCalls) : Json :=
  Json.ofMembers
    [("deposit", ofOption ofBytes calls.deposit),
     ("withdraw", ofOption ofBytes calls.withdraw)]

end SwapCompiler.Form
