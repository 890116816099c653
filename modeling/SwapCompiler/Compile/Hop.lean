import SwapCompiler.Compile.Leg

/-!
# Compiling one hop

The fills of a hop become parts, side by side.  Outside a trade of a single hop
several parts are shares of the hop's amount.  A branch may fan them out, and an
unwrap may follow so that the next hop finds the native asset in one form.
-/

namespace SwapCompiler

namespace Plan

/-- Combinations for which there is no code.

* Native asset that is held wrapped cannot be sold raw.
* A single hop wraps the whole amount or nothing.
* A special exchange does not wrap or unwrap inside a branch. -/
def checkCombination (plan : Plan) (scene : HopScene) (adapters : List Adapter) :
    Except Fault Unit :=
  let anyWrapping := adapters.any (·.wrapsNative)
  let anyRaw := adapters.any (!·.wrapsNative)
  if scene.wrappedSource && anyRaw then
    .error (.wrappedSaleToRaw scene.hop.position scene.route)
  else if plan.topology = .single && scene.nativeSource && anyWrapping && anyRaw then
    .error .mixedSingleHop
  else if scene.branched && (scene.nativeSource || scene.nativeDestination) &&
      adapters.any (fun adapter => adapter.isSpecial && adapter.wrapsNative) then
    .error (.specialInBranch scene.hop.position scene.route)
  else .ok ()

/-- Several fills outside a trade of a single hop are shares of their hop. -/
def sharesFills (plan : Plan) (hop : PlacedHop) : Bool :=
  plan.topology != .single && 1 < hop.fills.length

/-- What a fill's share is taken from. -/
def fillSource (plan : Plan) (scene : HopScene) (adapter : Adapter) : ShareSource :=
  if scene.nativeSource && !scene.wrappedSource then .native
  else .token (plan.soldToken scene adapter)

/-- The frames of a fill, behind a share where the hop is split. -/
def part (plan : Plan) (scene : HopScene) (wrapsHere : Bool) (fill : Fill) (adapter : Adapter) :
    Except Fault Part := do
  let leg ← plan.leg scene wrapsHere fill adapter
  let share ← onlyIf (plan.sharesFills scene.hop)
    (Share.of fill.percent (plan.fillSource scene adapter) (codeBytes leg.code))
  .ok ⟨share, leg⟩

/-- The parts of the remaining fills.  `wrapped` says whether an earlier fill of
the hop wrapped native asset; where fills are no shares, that wrap served all. -/
def parts (plan : Plan) (scene : HopScene) :
    Bool → List (PlacedFill × Adapter) → Except Fault (List Part)
  | _, [] => .ok []
  | wrapped, (placed, adapter) :: rest => do
      let wrapsHere := scene.wraps adapter && !scene.wrappedSource &&
        (plan.sharesFills scene.hop || !wrapped)
      let part ← plan.part scene wrapsHere placed.fill adapter
      let rest ← plan.parts scene (wrapped || wrapsHere) rest
      .ok (part :: rest)

/-- The flag of the branch that fans a hop out, if one does. -/
def branchFlag? (plan : Plan) (hop : PlacedHop) (adapters : List Adapter) : Option Flag :=
  if plan.branches hop then
    some (BranchFacts.flag
      { last := hop.last
        nativeDestination := plan.network.isNative hop.hop.destination
        anyWrapping := adapters.any (·.wrapsNative)
        anyRaw := adapters.any (!·.wrapsNative) })
  else none

/-- What the fills of a hop have in common. -/
def scene (plan : Plan) (route : PlacedRoute) (hop : PlacedHop) (held : NativeForm)
    (adapters : List Adapter) : HopScene :=
  let nativeSource := plan.network.isNative hop.hop.source
  { route := route.position
    horizontal := route.horizontal
    hop := hop
    nativeSource := nativeSource
    nativeDestination := plan.network.isNative hop.hop.destination
    wrappedSource := nativeSource && held = .wrapped
    branched := plan.branches hop
    exposesDestination := (plan.branchFlag? hop adapters).any (·.checksToken) }

/-- The branch around the parts of a hop. -/
def hopBranch (plan : Plan) (scene : HopScene) (flag : Flag) (children : Bytes) :
    Except Fault Branch := do
  let token := if scene.nativeDestination then plan.network.wrapped else scene.hop.hop.destination
  let branch ← Branch.of plan.network.executor flag (some token) children
  let _ ← (branch.frame children).checked
  .ok branch

/-- The branch around the parts of a hop, if one fans the hop out. -/
def hopBranch? (plan : Plan) (scene : HopScene) (adapters : List Adapter) (children : Bytes) :
    Except Fault (Option Branch) :=
  match plan.branchFlag? scene.hop adapters with
  | some flag => (plan.hopBranch scene flag children).map some
  | none => .ok none

/-- The code of a hop that is entered with the native asset in the given form. -/
def hop (plan : Plan) (route : PlacedRoute) (hop : PlacedHop) (held : NativeForm) :
    Except Fault HopCode := do
  let adapters ← hop.adapters plan.adapters
  let anyWrapping := adapters.any (·.wrapsNative)
  let anyRaw := adapters.any (!·.wrapsNative)
  let scene := plan.scene route hop held adapters
  plan.checkCombination scene adapters
  let parts ← plan.parts scene false (hop.fills.zip adapters)
  let branch ← plan.hopBranch? scene adapters (codeBytes (parts.flatMap Part.code))
  let unwrap ← onlyIf (scene.nativeDestination && !hop.last && anyWrapping && anyRaw)
    (plan.unwrapFrame Frame.midRouteUnwrapFlag)
  .ok
    { parts := parts
      branch := branch
      unwrap := unwrap
      leaves := if scene.nativeDestination && anyWrapping && !anyRaw then .wrapped else .raw }

end Plan

end SwapCompiler
