import SwapCompiler.Form.Basic
import SwapCompiler.Trade

/-!
# JSON forms of trades

Every field of a trade, a route, a hop and a fill is required.
-/

namespace SwapCompiler.Form

/-- The field names of a fill. -/
def fillFields : List String :=
  ["exchange", "percent", "src_amount", "dest_amount"]

/-- A fill. -/
def fill? (value : Json) : Option Fill := do
  let r ← Json.record? fillFields value
  some
    { exchange := ← r.required? "exchange" Json.text?
      percent := ← r.required? "percent" Json.float?
      sourceAmount := ← r.required? "src_amount" amount?
      destinationAmount := ← r.required? "dest_amount" amount? }

/-- The form of a fill. -/
def ofFill (fill : Fill) : Json :=
  Json.ofMembers
    [("exchange", .text fill.exchange),
     ("percent", ofPercent fill.percent),
     ("src_amount", ofAmount fill.sourceAmount),
     ("dest_amount", ofAmount fill.destinationAmount)]

/-- The field names of a hop. -/
def hopFields : List String :=
  ["src_token", "dest_token", "swap_exchanges"]

/-- A hop. -/
def hop? (reading : Json.Reading) (value : Json) : Option Hop := do
  let r ← Json.record? hopFields value
  some
    { source := ← r.required? "src_token" (address? reading)
      destination := ← r.required? "dest_token" (address? reading)
      fills := ← r.required? "swap_exchanges" (Json.list? fill?) }

/-- The form of a hop. -/
def ofHop (hop : Hop) : Json :=
  Json.ofMembers
    [("src_token", ofAddress hop.source),
     ("dest_token", ofAddress hop.destination),
     ("swap_exchanges", .array (hop.fills.map ofFill))]

/-- The field names of a route. -/
def routeFields : List String :=
  ["percent", "swaps"]

/-- A route. -/
def route? (reading : Json.Reading) (value : Json) : Option Route := do
  let r ← Json.record? routeFields value
  some
    { percent := ← r.required? "percent" Json.float?
      hops := ← r.required? "swaps" (Json.list? (hop? reading)) }

/-- The form of a route. -/
def ofRoute (route : Route) : Json :=
  Json.ofMembers
    [("percent", ofPercent route.percent),
     ("swaps", .array (route.hops.map ofHop))]

/-- The field names of a trade. -/
def tradeFields : List String :=
  ["src_token", "dest_token", "src_amount", "dest_amount", "best_route"]

/-- A trade. -/
def trade? (reading : Json.Reading) (value : Json) : Option Trade := do
  let r ← Json.record? tradeFields value
  some
    { source := ← r.required? "src_token" (address? reading)
      destination := ← r.required? "dest_token" (address? reading)
      sourceAmount := ← r.required? "src_amount" amount?
      destinationAmount := ← r.required? "dest_amount" amount?
      routes := ← r.required? "best_route" (Json.list? (route? reading)) }

/-- The form of a trade. -/
def ofTrade (trade : Trade) : Json :=
  Json.ofMembers
    [("src_token", ofAddress trade.source),
     ("dest_token", ofAddress trade.destination),
     ("src_amount", ofAmount trade.sourceAmount),
     ("dest_amount", ofAmount trade.destinationAmount),
     ("best_route", .array (trade.routes.map ofRoute))]

end SwapCompiler.Form
