import SwapCompiler.Layout
import SwapCompiler.Share

/-!
# Valid trades

A trade is checked before it is compiled.  The checks run in a fixed order, and
the first violation is reported:

* no level of the tree is empty, and the percentages of every level are
  positive and make up a whole;
* the hops of every route lead from the trade's source to its destination;
* no amount sold is zero;
* there is one adapter for each fill.
-/

namespace SwapCompiler.Trade

/-- Adds percentages from left to right, refusing the first that is not in
`(0, 100]`. -/
def sumPercents (level : PercentLevel) : Float → List Float → Except Fault Float
  | total, [] => .ok total
  | total, percent :: rest =>
      if percent ≤ 0.0 || 100.0 + Share.tolerance < percent then
        .error (.percentOutOfRange level percent)
      else sumPercents level (total + percent) rest

/-- The percentages of a level are in range and make up a whole. -/
def checkPercents (level : PercentLevel) (percents : List Float) : Except Fault Unit := do
  let total ← sumPercents level 0.0 percents
  if Share.tolerance < (total - 100.0).abs then .error (.percentSum level total) else .ok ()

/-- A hop has fills, and their percentages make up a whole. -/
def checkFills (route position : Nat) (hop : Hop) : Except Fault Unit :=
  if hop.fills.isEmpty then .error (.noFills position route)
  else checkPercents (.fills position route) (hop.fills.map (·.percent))

/-- A route has hops, and each of them passes. -/
def checkRouteFills (position : Nat) (route : Route) : Except Fault Unit :=
  if route.hops.isEmpty then .error (.noHops position)
  else route.hops.zipIdx.forM fun (hop, i) => checkFills position i hop

/-- No level is empty, and percentages make up a whole at every level. -/
def checkShares (trade : Trade) : Except Fault Unit :=
  if trade.routes.isEmpty then .error .noRoutes
  else do
    checkPercents .routes (trade.routes.map (·.percent))
    trade.routes.zipIdx.forM fun (route, i) => checkRouteFills i route

/-- Each hop sells what the hop before it bought. -/
def checkLinks (route : Nat) : Nat → List Hop → Except Fault Unit
  | position, hop :: next :: rest =>
      if hop.destination = next.source then checkLinks route (position + 1) (next :: rest)
      else .error (.brokenPath position route hop.destination next.source)
  | _, _ => .ok ()

/-- A route that has hops leads from the trade's source to its destination. -/
def checkRoutePath (trade : Trade) (position : Nat) (route : Route) : Except Fault Unit :=
  match route.hops.head?, route.hops.getLast? with
  | some first, some last =>
      if first.source ≠ trade.source then
        .error (.routeStart position first.source trade.source)
      else if last.destination ≠ trade.destination then
        .error (.routeEnd position last.destination trade.destination)
      else checkLinks position 0 route.hops
  | _, _ => .ok ()

/-- Every route leads from the trade's source to its destination. -/
def checkPaths (trade : Trade) : Except Fault Unit :=
  trade.routes.zipIdx.forM fun (route, i) => checkRoutePath trade i route

/-- All fills of a trade, in order. -/
def fills (trade : Trade) : List Fill :=
  trade.routes.flatMap fun route => route.hops.flatMap (·.fills)

/-- No amount sold is zero. -/
def checkAmounts (trade : Trade) : Except Fault Unit :=
  if trade.sourceAmount = 0 then .error .zeroTradeAmount
  else
    match trade.fills.find? (·.sourceAmount = 0) with
    | some fill => .error (.zeroFillAmount fill.exchange)
    | none => .ok ()

/-- The trade can be compiled with so many adapters. -/
def check (trade : Trade) (adapterCount : Nat) : Except Fault Unit := do
  trade.checkShares
  trade.checkPaths
  trade.checkAmounts
  (Layout.of trade).checkAdapters adapterCount

end SwapCompiler.Trade
