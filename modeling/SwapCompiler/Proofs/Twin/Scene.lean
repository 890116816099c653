import SwapCompiler.Proofs.Twin.Basic

/-!
# What a hop looks like from two plans

Before a hop is compiled, its plan answers a few questions about it: which token an exchange
takes and delivers, which flag its call has, whether the fills are shares, whether a branch
fans them out.  Here the answers of two plans are compared for hops that are alike but may
stand at different places.  No answer depends on the place, and none on whether an exchange
wants the wrapped token, unless the hop deals with the native asset.
-/

namespace SwapCompiler

/-- The hop sells or buys the native asset. -/
def Hop.dealsNatively (hop : Hop) (network : Network) : Bool :=
  network.isNative hop.source || network.isNative hop.destination

/-- Adapters of a hop that deals with the native asset want the same tokens. -/
theorem any_wrapsNative_twin {adapters counterparts : List Adapter}
    (h : List.Forall₂ (Adapter.Twin true) adapters counterparts) :
    counterparts.any (·.wrapsNative) = adapters.any (·.wrapsNative) ∧
      counterparts.any (!·.wrapsNative) = adapters.any (!·.wrapsNative) := by
  constructor
  · exact (any_eq_of_forall₂ (h.imp fun _ _ htwin => (htwin.wrapsNative rfl).symm)).symm
  · exact (any_eq_of_forall₂ (h.imp fun _ _ htwin => by rw [htwin.wrapsNative rfl])).symm

namespace HopScene

/-- The scene, seen from another place. -/
def moved (scene : HopScene) (route : Nat) (hop : PlacedHop) : HopScene :=
  { scene with route := route, hop := hop }

/-- The hop sells or buys the native asset. -/
def native (scene : HopScene) : Bool :=
  scene.nativeSource || scene.nativeDestination

variable {scene : HopScene} {adapter counterpart : Adapter}

theorem wraps_twin (h : adapter.Twin scene.native counterpart) :
    scene.wraps counterpart = scene.wraps adapter := by
  unfold wraps
  cases hnative : scene.nativeSource with
  | false => rfl
  | true => rw [h.wrapsNative (by simp [native, hnative])]

theorem unwraps_twin (h : adapter.Twin scene.native counterpart) :
    scene.unwraps counterpart = scene.unwraps adapter := by
  unfold unwraps
  cases hnative : scene.nativeDestination with
  | false => rfl
  | true => rw [h.wrapsNative (by simp [native, hnative])]

end HopScene

namespace Plan

/-- Plans on the same network for trades of the same pair and shape. -/
structure SameTrade (plan other : Plan) : Prop where
  network : other.network = plan.network
  topology : other.topology = plan.topology
  source : other.trade.source = plan.trade.source
  destination : other.trade.destination = plan.trade.destination

variable {plan other : Plan} {partner : PlacedHop} {pair : PlacedFill → PlacedFill → Prop}
  (hsame : plan.SameTrade other)

include hsame

section

variable {scene : HopScene} (hhop : scene.hop.Twin pair partner) {adapter counterpart : Adapter}
  (hadapter : adapter.Twin scene.native counterpart) {number : Nat}

include hhop

theorem sharesFills_twin : other.sharesFills partner = plan.sharesFills scene.hop := by
  rw [sharesFills, sharesFills, hsame.topology, ← hhop.fills.length_eq]

include hadapter

theorem soldToken_twin : other.soldToken (scene.moved number partner) counterpart =
    plan.soldToken scene adapter := by
  show (if scene.wraps counterpart then other.network.wrapped else partner.hop.source) = _
  rw [HopScene.wraps_twin hadapter, hsame.network, hhop.source]
  rfl

theorem receivedToken_twin : other.receivedToken (scene.moved number partner) counterpart =
    plan.receivedToken scene adapter := by
  show (if scene.unwraps counterpart then other.network.wrapped else partner.hop.destination) = _
  rw [HopScene.unwraps_twin hadapter, hsame.network, hhop.destination]
  rfl

theorem callFlag_twin : other.callFlag (scene.moved number partner) counterpart =
    plan.callFlag scene adapter := by
  have hwraps : (scene.moved number partner).wraps counterpart = scene.wraps adapter :=
    HopScene.wraps_twin hadapter
  have hunwraps : (scene.moved number partner).unwraps counterpart = scene.unwraps adapter :=
    HopScene.unwraps_twin hadapter
  have hspecial : counterpart.isSpecial = adapter.isSpecial := by
    rw [Adapter.isSpecial, Adapter.isSpecial, hadapter.opcode]
  unfold callFlag
  rw [hsame.topology, hwraps, hunwraps, hspecial, hadapter.paysRecipient]
  simp only [HopScene.moved, hhop.first, hhop.last]

theorem call_twin {fill partnerFill : Fill} (hfill : partnerFill.sourceAmount = fill.sourceAmount) :
    other.call (scene.moved number partner) partnerFill counterpart =
      plan.call scene fill adapter := by
  unfold call
  rw [receivedToken_twin hsame hhop hadapter, callFlag_twin hsame hhop hadapter, hsame.network,
    hadapter.target, hadapter.calldata, hadapter.opcode, hadapter.namesDestination,
    hadapter.returnPosition, hfill]
  rfl

theorem fillSource_twin : other.fillSource (scene.moved number partner) counterpart =
    plan.fillSource scene adapter := by
  unfold fillSource
  rw [soldToken_twin hsame hhop hadapter]
  rfl

end

section

variable {hop : PlacedHop} (hhop : hop.Twin pair partner) {adapters counterparts : List Adapter}
  (hadapters : List.Forall₂ (Adapter.Twin (hop.hop.dealsNatively plan.network)) adapters
    counterparts)

include hhop

theorem branches_twin : other.branches partner = plan.branches hop := by
  unfold branches
  rw [hsame.topology, hsame.source, hsame.destination, hhop.source, hhop.destination,
    ← hhop.fills.length_eq]

include hadapters

/-- A branch asks what its fills deal with only to know in which form the native asset
arrives. -/
theorem branchFlag?_twin : other.branchFlag? partner counterparts =
    plan.branchFlag? hop adapters := by
  unfold branchFlag?
  rw [branches_twin hsame hhop, hsame.network, hhop.last, hhop.destination]
  cases hnative : plan.network.isNative hop.hop.destination with
  | false => simp [BranchFacts.flag]
  | true =>
      have hdeals : hop.hop.dealsNatively plan.network = true := by
        simp [Hop.dealsNatively, hnative]
      obtain ⟨hwrapping, hraw⟩ := any_wrapsNative_twin (hdeals ▸ hadapters)
      rw [hwrapping, hraw]

/-- The scene of the one hop is that of the other, seen from its own place. -/
theorem scene_twin {route placed : PlacedRoute} (hhorizontal : placed.horizontal = route.horizontal)
    (held : NativeForm) : other.scene placed partner held counterparts =
      (plan.scene route hop held adapters).moved placed.position partner := by
  simp only [scene, HopScene.moved, branchFlag?_twin hsame hhop hadapters,
    branches_twin hsame hhop, hsame.network, hhop.source, hhop.destination, hhorizontal]

theorem hopBranch?_twin {route : PlacedRoute} {held : NativeForm} {number : Nat}
    (children : Bytes) :
    other.hopBranch? ((plan.scene route hop held adapters).moved number partner) counterparts
        children =
      plan.hopBranch? (plan.scene route hop held adapters) adapters children := by
  have hflag : other.branchFlag? ((plan.scene route hop held adapters).moved number partner).hop
      counterparts = plan.branchFlag? (plan.scene route hop held adapters).hop adapters :=
    branchFlag?_twin hsame hhop hadapters
  unfold hopBranch? hopBranch
  rw [hflag]
  simp only [HopScene.moved, hsame.network, hhop.destination]
  rfl

end

end Plan

end SwapCompiler
