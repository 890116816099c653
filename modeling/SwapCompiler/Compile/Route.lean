import SwapCompiler.Compile.Hop

/-!
# Compiling routes

The hops of a route follow each other, each entered with the native asset in
the form in which the one before left it.  Parallel routes are shares of the
trade's amount.
-/

namespace SwapCompiler

namespace Plan

/-- The code of the remaining hops of a route. -/
def hops (plan : Plan) (route : PlacedRoute) :
    NativeForm → List PlacedHop → Except Fault (List HopCode)
  | _, [] => .ok []
  | held, next :: rest => do
      let code ← plan.hop route next held
      let rest ← plan.hops route code.leaves rest
      .ok (code :: rest)

/-- The code of one route; the last one ends with the frame that sends the
native balance on, if the plan says so. -/
def route (plan : Plan) (route : PlacedRoute) : Except Fault RouteCode := do
  let hops ← plan.hops route plan.initialForm route.hops
  let forward ← onlyIf
    (plan.forwardNative && route.position + 1 = plan.trade.routes.length)
    Frame.sendNative.checked
  .ok ⟨hops, forward⟩

/-- What a route's share is taken from. -/
def routeSource (plan : Plan) : ShareSource :=
  if plan.rootWrap then .token plan.network.wrapped
  else if plan.nativeSource then .native
  else .token plan.trade.source

/-- The code of one route, behind a share where routes are parallel. -/
def routePart (plan : Plan) (placed : PlacedRoute) : Except Fault RoutePart := do
  let code ← plan.route placed
  let share ← onlyIf (plan.topology = .parallel)
    (Share.of placed.route.percent plan.routeSource (codeBytes code.code))
  .ok ⟨share, code⟩

/-- The code of all routes. -/
def routes (plan : Plan) : Except Fault (List RoutePart) :=
  plan.layout.routes.mapM plan.routePart

end Plan

end SwapCompiler
