import SwapCompiler.Address

/-!
# Trades

A trade sells one token for another along parallel routes.  A route is a
sequence of hops through intermediate tokens, and each hop is filled by one or
more exchanges side by side.

Percentages are doubles, as quoted; `50.0` is one half.  Amounts are natural
numbers of any size.
-/

namespace SwapCompiler

/-- One exchange's part of a hop. -/
structure Fill where
  /-- The exchange's name, which only diagnostics use. -/
  exchange : String
  /-- The part of the hop that this exchange fills. -/
  percent : Float
  /-- The quoted amount sold here, which the adapter's calldata holds literally. -/
  sourceAmount : Nat
  /-- The quoted amount bought here. -/
  destinationAmount : Nat
  deriving DecidableEq

/-- A conversion of one token into another. -/
structure Hop where
  source : Address
  destination : Address
  fills : List Fill
  deriving DecidableEq

/-- One of the parallel paths of a trade. -/
structure Route where
  /-- The part of the trade that takes this path. -/
  percent : Float
  hops : List Hop
  deriving DecidableEq

/-- A priced trade. -/
structure Trade where
  source : Address
  destination : Address
  sourceAmount : Nat
  destinationAmount : Nat
  routes : List Route
  deriving DecidableEq

/-- The shape of a trade, which decides how its code is packed. -/
inductive Topology
  /-- One route of one hop. -/
  | single
  /-- One route of any other number of hops. -/
  | sequential
  /-- Any other number of routes. -/
  | parallel
  deriving DecidableEq, Repr

namespace Trade

/-- The shape of a trade. -/
def topology (trade : Trade) : Topology :=
  match trade.routes with
  | [route] => if route.hops.length = 1 then .single else .sequential
  | _ => .parallel

end Trade

end SwapCompiler
