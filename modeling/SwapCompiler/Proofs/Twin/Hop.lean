import SwapCompiler.Proofs.Twin.Scene

/-!
# Twin hops compile alike

What a fill compiles to depends on a few answers of its adapter, and on the amount it buys
only if a transfer sends that amount on.  Whether the adapter wants the wrapped token is
asked only where the hop deals with the native asset, and so is the calldata for wrapping.

* `SiteTwin` relates fills together with their adapters.
* `Plan.HopTwin` relates hops that are compiled under two plans.
* Level by level the builders end alike, up to `Plan.hops_endsAlike` for whole routes.
-/

namespace SwapCompiler

/-- What the hop buys is sent on by transfers, where it is not paid to the recipient. -/
def PlacedHop.delivers (hop : PlacedHop) (network : Network) : Bool :=
  hop.last && !network.isNative hop.hop.destination

/-- Twin fills with twin adapters.  The amounts bought agree where a transfer sends them
on. -/
structure SiteTwin (rename : String → String) (native delivers : Bool)
    (site other : PlacedFill × Adapter) : Prop where
  fill : site.1.fill.Twin rename other.1.fill
  adapter : site.2.Twin native other.2
  delivered : delivers = true → site.2.paysRecipient = false →
    other.1.fill.destinationAmount = site.1.fill.destinationAmount

/-- Fills that make twins with the adapters that are given for them. -/
def PlacedFill.Served (rename : String → String) (given others : List Adapter)
    (native delivers : Bool) (placed other : PlacedFill) : Prop :=
  ∃ adapter counterpart, given[placed.index]? = some adapter ∧
    others[other.index]? = some counterpart ∧
      SiteTwin rename native delivers (placed, adapter) (other, counterpart)

theorem exists_sites_of_served {rename : String → String} {given others : List Adapter}
    {native delivers : Bool} {fills partners : List PlacedFill}
    (h : List.Forall₂ (PlacedFill.Served rename given others native delivers) fills partners) :
    ∃ adapters counterparts,
      List.Forall₂ (fun placed adapter => given[placed.index]? = some adapter) fills adapters ∧
      List.Forall₂ (fun placed adapter => others[placed.index]? = some adapter) partners
        counterparts ∧
      List.Forall₂ (Adapter.Twin native) adapters counterparts ∧
      List.Forall₂ (SiteTwin rename native delivers) (fills.zip adapters)
        (partners.zip counterparts) := by
  induction h with
  | nil => exact ⟨[], [], .nil, .nil, .nil, .nil⟩
  | cons hhead _ ih =>
      obtain ⟨adapter, counterpart, hadapter, hcounterpart, hsite⟩ := hhead
      obtain ⟨adapters, counterparts, hfound, hgiven, htwins, hsites⟩ := ih
      exact ⟨adapter :: adapters, counterpart :: counterparts, .cons hadapter hfound,
        .cons hcounterpart hgiven, .cons hsite.adapter htwins, .cons hsite hsites⟩

/-- What the hop buys is sent on by transfers. -/
def HopScene.delivers (scene : HopScene) : Bool :=
  scene.hop.last && !scene.nativeDestination

namespace Plan

/-- Both plans wrap and unwrap with the same frames. -/
def SameCalls (plan other : Plan) : Prop :=
  other.wrapFrame = plan.wrapFrame ∧ ∀ flag, other.unwrapFrame flag = plan.unwrapFrame flag

/-- Hops at the same place, whose fills are served alike.  If they deal with the native
asset, both plans wrap and unwrap alike too. -/
structure HopTwin (rename : String → String) (plan other : Plan) (hop partner : PlacedHop) :
    Prop where
  position : partner.position = hop.position
  place : hop.Twin (PlacedFill.Served rename plan.adapters other.adapters
    (hop.hop.dealsNatively plan.network) (hop.delivers plan.network)) partner
  calls : hop.hop.dealsNatively plan.network = true → plan.SameCalls other

variable {rename : String → String} {plan other : Plan} {scene : HopScene}
  {partner : PlacedHop} {pair : PlacedFill → PlacedFill → Prop} (hsame : plan.SameTrade other)

section

variable (hposition : partner.position = scene.hop.position)
  (hhop : scene.hop.Twin pair partner)
  (hcalls : scene.native = true → plan.SameCalls other) {site counterSite : PlacedFill × Adapter}

include hsame hposition hhop hcalls

/-- The frames of a fill: each is built from what the twins share, if it is built. -/
theorem leg_endsAlike (hsite : SiteTwin rename scene.native scene.delivers site counterSite)
    {here : Bool} (hhere : here = true → scene.nativeSource = true) :
    EndsAlike rename (plan.leg scene here site.1.fill site.2)
      (other.leg (scene.moved scene.route partner) here counterSite.1.fill counterSite.2) := by
  have hunwraps : (scene.moved scene.route partner).unwraps counterSite.2 =
      scene.unwraps site.2 :=
    HopScene.unwraps_twin hsite.adapter
  unfold leg
  rw [soldToken_twin hsame hhop hsite.adapter, hsame.network, hsame.topology,
    hsite.adapter.allowee, hsite.fill.sourceAmount,
    call_twin hsame hhop hsite.adapter hsite.fill.sourceAmount, hunwraps,
    hsite.adapter.paysRecipient]
  refine EndsAlike.bind (.onlyIf fun hneeded => ?_) fun _ _ => ?_
  · exact .of_eq (hcalls (by simp [HopScene.native, hhere hneeded])).1
  refine EndsAlike.bind (.of_eq rfl) fun _ _ => ?_
  refine EndsAlike.bind (.reword fun fault => ?_) fun _ _ => ?_
  · simp only [HopScene.moved, hposition]
    exact Fault.renamed_locate hsite.fill.exchange _ _ fault
  refine EndsAlike.bind (.of_eq rfl) fun _ _ => ?_
  refine EndsAlike.bind (.onlyIf fun hneeded => ?_) fun _ _ => ?_
  · have hnative : scene.nativeDestination = true := by
      simp only [HopScene.unwraps, Bool.and_eq_true] at hneeded
      exact hneeded.2.1
    exact .of_eq ((hcalls (by simp [HopScene.native, hnative])).2 _)
  refine EndsAlike.bind (.of_eq ?_) fun _ _ => .of_eq rfl
  -- only a transfer looks at the amount bought
  simp only [HopScene.moved, hhop.last, hhop.destination]
  cases hneeded : scene.hop.last && !site.2.paysRecipient && !scene.nativeDestination with
  | false => rfl
  | true =>
      simp only [Bool.and_eq_true, Bool.not_eq_true'] at hneeded
      obtain ⟨⟨hlast, hpays⟩, hnative⟩ := hneeded
      rw [hsite.delivered (by simp [HopScene.delivers, hlast, hnative]) hpays]

theorem part_endsAlike (hsite : SiteTwin rename scene.native scene.delivers site counterSite)
    {here : Bool} (hhere : here = true → scene.nativeSource = true) :
    EndsAlike rename (plan.part scene here site.1.fill site.2)
      (other.part (scene.moved scene.route partner) here counterSite.1.fill counterSite.2) := by
  have hshares : other.sharesFills (scene.moved scene.route partner).hop =
      plan.sharesFills scene.hop :=
    sharesFills_twin hsame hhop
  unfold part
  rw [hshares, hsite.fill.percent, fillSource_twin hsame hhop hsite.adapter]
  exact (leg_endsAlike hsame hposition hhop hcalls hsite hhere).bind fun _ _ => .of_eq rfl

/-- Both walks wrap for the same fills. -/
theorem parts_endsAlike {sites counterSites : List (PlacedFill × Adapter)}
    (h : List.Forall₂ (SiteTwin rename scene.native scene.delivers) sites counterSites)
    (served : Bool) :
    EndsAlike rename (plan.parts scene served sites)
      (other.parts (scene.moved scene.route partner) served counterSites) := by
  have hshares : other.sharesFills (scene.moved scene.route partner).hop =
      plan.sharesFills scene.hop :=
    sharesFills_twin hsame hhop
  induction h generalizing served with
  | nil => exact .of_eq rfl
  | @cons site counterSite sites counterSites hsite _ ih =>
      have hwraps : (scene.moved scene.route partner).wraps counterSite.2 = scene.wraps site.2 :=
        HopScene.wraps_twin hsite.adapter
      rw [parts, parts, hshares, hwraps]
      refine (part_endsAlike hsame hposition hhop hcalls hsite fun hhere => ?_).bind
        fun _ _ => ?_
      · simp only [HopScene.wraps, Bool.and_eq_true] at hhere
        exact hhere.1.1.1
      · exact (ih _).bind fun _ _ => .of_eq rfl

end

/-! ## A hop as a whole -/

section

variable {hop : PlacedHop} {route placed : PlacedRoute} {held : NativeForm}

include hsame

/-- Every combination without code involves the native asset. -/
theorem checkCombination_twin (hposition : partner.position = hop.position)
    {adapters counterparts : List Adapter}
    (hadapters : List.Forall₂ (Adapter.Twin (hop.hop.dealsNatively plan.network)) adapters
      counterparts) :
    other.checkCombination ((plan.scene route hop held adapters).moved route.position partner)
        counterparts =
      plan.checkCombination (plan.scene route hop held adapters) adapters := by
  unfold checkCombination
  cases hdeals : hop.hop.dealsNatively plan.network with
  | false =>
      obtain ⟨hsource, hdestination⟩ := Bool.or_eq_false_iff.1 hdeals
      simp [scene, HopScene.moved, hsource, hdestination]
  | true =>
      rw [hdeals] at hadapters
      obtain ⟨hwrapping, hraw⟩ := any_wrapsNative_twin hadapters
      have hspecial : counterparts.any (fun adapter => adapter.isSpecial && adapter.wrapsNative) =
          adapters.any fun adapter => adapter.isSpecial && adapter.wrapsNative := by
        refine (any_eq_of_forall₂ (hadapters.imp fun adapter counterpart htwin => ?_)).symm
        rw [Adapter.isSpecial, Adapter.isSpecial, htwin.opcode, htwin.wrapsNative rfl]
      simp only [hwrapping, hraw, hspecial, HopScene.moved, hsame.topology, hposition]
      rfl

variable (hroute : placed.position = route.position)
  (hhorizontal : placed.horizontal = route.horizontal)

include hroute hhorizontal

theorem hop_endsAlike (hhop : plan.HopTwin rename other hop partner) :
    EndsAlike rename (plan.hop route hop held) (other.hop placed partner held) := by
  obtain ⟨adapters, counterparts, hfound, hgiven, hadapters, hsites⟩ :=
    exists_sites_of_served hhop.place.fills
  rw [Plan.hop, Plan.hop, PlacedHop.adapters_eq_ok_iff.2 hfound,
    PlacedHop.adapters_eq_ok_iff.2 hgiven]
  change EndsAlike rename (plan.checkCombination _ _ >>= _) (other.checkCombination _ _ >>= _)
  rw [scene_twin hsame hhop.place hadapters hhorizontal, hroute]
  refine EndsAlike.bind (.of_eq (checkCombination_twin hsame hhop.position hadapters))
    fun _ _ => ?_
  have hcalls : (plan.scene route hop held adapters).native = true → plan.SameCalls other :=
    hhop.calls
  refine EndsAlike.bind (parts_endsAlike hsame hhop.position hhop.place hcalls hsites false)
    fun parts _ => ?_
  refine EndsAlike.bind (.of_eq (hopBranch?_twin hsame hhop.place hadapters _)) fun _ _ => ?_
  -- behind the parts, the adapters matter only if the hop buys native asset
  cases hnative : plan.network.isNative hop.hop.destination with
  | false =>
      simp only [HopScene.moved, scene, hnative, Bool.false_and]
      exact .of_eq rfl
  | true =>
      have hdeals : hop.hop.dealsNatively plan.network = true := by
        simp [Hop.dealsNatively, hnative]
      obtain ⟨hwrapping, hraw⟩ := any_wrapsNative_twin (hdeals ▸ hadapters)
      rw [hwrapping, hraw, hhop.place.last, (hhop.calls hdeals).2]
      exact .of_eq rfl

/-- Twin routes end alike, hop by hop; a hop that ends with a value hands the native asset
on in the same form. -/
theorem hops_endsAlike {hops partners : List PlacedHop}
    (h : List.Forall₂ (plan.HopTwin rename other) hops partners) (held : NativeForm) :
    EndsAlike rename (plan.hops route held hops) (other.hops placed held partners) := by
  induction h generalizing held with
  | nil => exact .of_eq rfl
  | cons hhead _ ih =>
      rw [Plan.hops, Plan.hops]
      exact (hop_endsAlike hsame hroute hhorizontal hhead).bind fun code _ =>
        (ih code.leaves).bind fun _ _ => .of_eq rfl

end

end Plan

end SwapCompiler
