import SwapCompiler.Code.Program
import SwapCompiler.Layout
import SwapCompiler.Network.Basic
import SwapCompiler.Request

/-!
# Planning the native asset

Before any code is built it is settled, for the trade as a whole, where the
native asset is wrapped and unwrapped and whether the executor must send it on.

* The whole native amount is wrapped once, in front of all routes, if deposit
  calldata was given and every exchange of every first hop wants the wrapped
  token.
* What the last hops deliver wrapped is unwrapped once, behind all routes.
* Native asset that no exchange sends to the recipient is sent on at the end.

A trade of a single hop wraps and unwraps beside its exchange calls instead.
-/

namespace SwapCompiler

/-- A request on the network that it is compiled for. -/
structure Job extends Request where
  network : Network

namespace Job

/-- The layout of the trade. -/
def layout (job : Job) : Layout :=
  Layout.of job.trade

/-- The trade sells the native asset. -/
def nativeSource (job : Job) : Bool :=
  job.network.isNative job.trade.source

/-- The trade buys the native asset. -/
def nativeDestination (job : Job) : Bool :=
  job.network.isNative job.trade.destination

/-- The deposit calldata, if it was given. -/
def deposit? (job : Job) : Option Bytes :=
  job.wrapCalls.bind (·.deposit)

/-- The withdraw calldata, if it was given. -/
def withdraw? (job : Job) : Option Bytes :=
  job.wrapCalls.bind (·.withdraw)

/-- The deposit calldata, which is needed. -/
def deposit (job : Job) : Except Fault Bytes :=
  match job.deposit? with
  | some calldata => .ok calldata
  | none => .error .depositMissing

/-- The withdraw calldata, which is needed. -/
def withdraw (job : Job) : Except Fault Bytes :=
  match job.withdraw? with
  | some calldata => .ok calldata
  | none => .error .withdrawMissing

/-- The adapters of some hops, hop by hop. -/
def adaptersOf (job : Job) (hops : List PlacedHop) : Except Fault (List (List Adapter)) :=
  hops.mapM (PlacedHop.adapters job.adapters)

/-- The native source is wrapped in front of all routes. -/
def wrapsSource (job : Job) : Except Fault Bool :=
  if job.trade.topology = .single || !job.nativeSource || job.deposit?.isNone then .ok false
  else do
    let adapters ← job.adaptersOf job.layout.firstHops
    .ok (adapters.all fun hop => hop.all (·.wrapsNative))

/-- The native destination is unwrapped behind all routes, which takes withdraw
calldata. -/
def unwrapsDestination (job : Job) : Except Fault Bool :=
  if job.trade.topology = .single || !job.nativeDestination then .ok false
  else do
    let adapters ← job.adaptersOf job.layout.lastHops
    if adapters.any fun hop => hop.any (·.wrapsNative) then do
      let _ ← job.withdraw
      .ok true
    else .ok false

/-- The executor is left with native asset that it must send on: an exchange
does not pay the recipient, or what it delivers is unwrapped beside it. -/
def forwardsNative (job : Job) : Except Fault Bool :=
  if !job.nativeDestination then .ok false
  else do
    let adapters ← job.adaptersOf job.layout.lastHops
    .ok (adapters.any fun hop => hop.any fun adapter =>
      !adapter.paysRecipient || (job.trade.topology = .single && adapter.wrapsNative))

end Job

/-- A job with what was settled for the trade as a whole. -/
structure Plan extends Job where
  /-- The whole native amount is wrapped in front of all routes. -/
  rootWrap : Bool
  /-- What was bought is unwrapped behind all routes. -/
  rootUnwrap : Bool
  /-- The native balance is sent on behind the last route. -/
  forwardNative : Bool

namespace Plan

/-- The plan of a job that has one adapter for each fill. -/
def of (job : Job) : Except Fault Plan := do
  job.layout.checkAdapters job.adapters.length
  let rootWrap ← job.wrapsSource
  let rootUnwrap ← job.unwrapsDestination
  let forwardNative ← if rootUnwrap then .ok false else job.forwardsNative
  .ok
    { toJob := job
      rootWrap := rootWrap
      rootUnwrap := rootUnwrap
      forwardNative := forwardNative }

/-- The shape of the trade. -/
def topology (plan : Plan) : Topology :=
  plan.trade.topology

/-- The form of the native asset in front of every route. -/
def initialForm (plan : Plan) : NativeForm :=
  if plan.rootWrap then .wrapped else .raw

/-- A hop is fanned out by a branch: it has several fills, it is not the whole
trade, and it does not trade the whole trade's pair. -/
def branches (plan : Plan) (hop : PlacedHop) : Bool :=
  1 < hop.fills.length && plan.topology != .single &&
    !(hop.hop.source = plan.trade.source && hop.hop.destination = plan.trade.destination)

end Plan

end SwapCompiler
