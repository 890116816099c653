import SwapCompiler.Adapter
import SwapCompiler.Fault
import SwapCompiler.Trade

/-!
# The layout of a trade

The tree of a trade with every part told its place: routes and hops are
numbered from zero inside their lists, hops know whether they are the first or
the last of their route, and fills are numbered through the whole tree, in
route, hop, fill order.  A fill's number is the place of its adapter in the
flat list of adapters.
-/

namespace SwapCompiler

/-- A fill with the place of its adapter. -/
structure PlacedFill where
  index : Nat
  fill : Fill
  deriving DecidableEq

/-- A hop with its place in its route. -/
structure PlacedHop where
  position : Nat
  first : Bool
  last : Bool
  hop : Hop
  fills : List PlacedFill
  deriving DecidableEq

/-- A route with its place in the trade. -/
structure PlacedRoute where
  position : Nat
  route : Route
  hops : List PlacedHop
  deriving DecidableEq

namespace PlacedRoute

/-- The route has more than one hop. -/
def horizontal (route : PlacedRoute) : Bool :=
  1 < route.hops.length

end PlacedRoute

/-- The number of fills of a hop list. -/
def countFills : List Hop → Nat
  | [] => 0
  | hop :: rest => hop.fills.length + countFills rest

/-- The number of fills of a route list. -/
def countRouteFills : List Route → Nat
  | [] => 0
  | route :: rest => countFills route.hops + countRouteFills rest

/-- Numbers fills from the given number on. -/
def placeFills : Nat → List Fill → List PlacedFill
  | _, [] => []
  | index, fill :: rest => ⟨index, fill⟩ :: placeFills (index + 1) rest

/-- Places the remaining hops of a route; `index` numbers their first fill. -/
def placeHops : Nat → Nat → List Hop → List PlacedHop
  | _, _, [] => []
  | index, position, hop :: rest =>
      { position := position
        first := position = 0
        last := rest.isEmpty
        hop := hop
        fills := placeFills index hop.fills } ::
      placeHops (index + hop.fills.length) (position + 1) rest

/-- Places the remaining routes of a trade; `index` numbers their first fill. -/
def placeRoutes : Nat → Nat → List Route → List PlacedRoute
  | _, _, [] => []
  | index, position, route :: rest =>
      ⟨position, route, placeHops index 0 route.hops⟩ ::
      placeRoutes (index + countFills route.hops) (position + 1) rest

/-- The placed routes of a trade and the number of its fills. -/
structure Layout where
  routes : List PlacedRoute
  fillCount : Nat
  deriving DecidableEq

namespace Layout

/-- The layout of a trade. -/
def of (trade : Trade) : Layout :=
  { routes := placeRoutes 0 0 trade.routes
    fillCount := countRouteFills trade.routes }

/-- There is exactly one adapter for each fill. -/
def checkAdapters (layout : Layout) (given : Nat) : Except Fault Unit :=
  if given = layout.fillCount then .ok ()
  else .error (.adapterCount layout.fillCount given)

/-- The first hop of every route that has one. -/
def firstHops (layout : Layout) : List PlacedHop :=
  layout.routes.filterMap (·.hops.head?)

/-- The last hop of every route that has one. -/
def lastHops (layout : Layout) : List PlacedHop :=
  layout.routes.filterMap (·.hops.getLast?)

end Layout

/-- The adapter of a fill. -/
def PlacedFill.adapter (adapters : List Adapter) (fill : PlacedFill) : Except Fault Adapter :=
  match adapters[fill.index]? with
  | some adapter => .ok adapter
  | none => .error (.adapterMissing fill.index)

/-- The adapters of a hop's fills, in order. -/
def PlacedHop.adapters (adapters : List Adapter) (hop : PlacedHop) :
    Except Fault (List Adapter) :=
  hop.fills.mapM (PlacedFill.adapter adapters)

end SwapCompiler
