import SwapCompiler.Compile.Plan
import SwapCompiler.Flag.Rules
import SwapCompiler.Frame.Token

/-!
# Compiling one fill

The frames of a fill are, in order: wrap, approve, call, unwrap, transfer; only
the call is always there.  An exchange that deals with the wrapped token sells
and delivers that token wherever its hop says native.
-/

namespace SwapCompiler

/-- What the fills of one hop have in common. -/
structure HopScene where
  route : Nat
  /-- The route has more than one hop. -/
  horizontal : Bool
  hop : PlacedHop
  nativeSource : Bool
  nativeDestination : Bool
  /-- The hop sells native asset that is held wrapped. -/
  wrappedSource : Bool
  /-- A branch fans the hop out. -/
  branched : Bool
  /-- That branch looks for the bought token inside the calls. -/
  exposesDestination : Bool

/-- A part of the code that is built only under a condition. -/
def onlyIf {α : Type} (needed : Bool) (build : Except Fault α) : Except Fault (Option α) :=
  if needed then build.map some else .ok none

namespace HopScene

/-- The exchange sells the wrapped token in place of the native asset. -/
def wraps (scene : HopScene) (adapter : Adapter) : Bool :=
  scene.nativeSource && adapter.wrapsNative

/-- The exchange delivers the wrapped token in place of the native asset. -/
def unwraps (scene : HopScene) (adapter : Adapter) : Bool :=
  scene.nativeDestination && adapter.wrapsNative

end HopScene

namespace Plan

/-- The token that an exchange takes. -/
def soldToken (plan : Plan) (scene : HopScene) (adapter : Adapter) : Address :=
  if scene.wraps adapter then plan.network.wrapped else scene.hop.hop.source

/-- The token that an exchange delivers. -/
def receivedToken (plan : Plan) (scene : HopScene) (adapter : Adapter) : Address :=
  if scene.unwraps adapter then plan.network.wrapped else scene.hop.hop.destination

/-- The flag of an exchange call. -/
def callFlag (plan : Plan) (scene : HopScene) (adapter : Adapter) : Flag :=
  match plan.topology with
  | .single =>
      SingleFacts.flag
        { nativeSource := scene.nativeSource
          nativeDestination := scene.nativeDestination
          wraps := scene.wraps adapter
          unwraps := scene.unwraps adapter
          paysRecipient := adapter.paysRecipient }
  | .sequential | .parallel =>
      HopFacts.flag
        { first := scene.hop.first
          last := scene.hop.last
          nativeSource := scene.nativeSource
          nativeDestination := scene.nativeDestination
          wraps := scene.wraps adapter
          unwraps := scene.unwraps adapter
          horizontal := scene.horizontal
          special := adapter.isSpecial
          branched := scene.branched
          paysRecipient := adapter.paysRecipient }

/-- The exchange call of a fill. -/
def call (plan : Plan) (scene : HopScene) (fill : Fill) (adapter : Adapter) : Call :=
  let received := plan.receivedToken scene adapter
  { target := adapter.target
    calldata := adapter.calldata
    sourceAmount := fill.sourceAmount
    received := received
    flag := plan.callFlag scene adapter
    opcode := adapter.opcode
    namesReceived := adapter.namesDestination
    exposeReceived := scene.exposesDestination && !plan.network.isNative received
    returnPosition := adapter.returnPosition.getD 0 }

/-- Wraps native asset with the given deposit calldata. -/
def wrapFrame (plan : Plan) : Except Fault Frame := do
  let deposit ← plan.deposit
  (Frame.wrap plan.network.wrapped deposit).checked

/-- Unwraps native asset with the given withdraw calldata. -/
def unwrapFrame (plan : Plan) (flag : Flag) : Except Fault Frame := do
  let withdraw ← plan.withdraw
  let frame ← Frame.unwrap plan.network.wrapped withdraw flag
  frame.checked

/-- The frames of one fill.  `wrapsHere` says whether native asset is wrapped
in front of it. -/
def leg (plan : Plan) (scene : HopScene) (wrapsHere : Bool) (fill : Fill) (adapter : Adapter) :
    Except Fault Leg := do
  let sold := plan.soldToken scene adapter
  let wrap ← onlyIf wrapsHere plan.wrapFrame
  let approve ← onlyIf (!plan.network.isNative sold) do
    let frame ← Frame.approve sold adapter.allowee fill.sourceAmount
    frame.checked
  let call ← (plan.call scene fill adapter).frame.mapError
    (Fault.locate ⟨fill.exchange, scene.hop.position, scene.route⟩)
  let call ← call.checked
  let unwrap ← onlyIf (plan.topology = .single && scene.unwraps adapter)
    (plan.unwrapFrame Frame.unwrapFlag)
  let transfer ←
    onlyIf (scene.hop.last && !adapter.paysRecipient && !scene.nativeDestination) do
      let frame ←
        Frame.transfer scene.hop.hop.destination plan.network.router fill.destinationAmount
      frame.checked
  .ok
    { wrap := wrap
      approve := approve
      call := call
      unwrap := unwrap
      transfer := transfer }

end Plan

end SwapCompiler
