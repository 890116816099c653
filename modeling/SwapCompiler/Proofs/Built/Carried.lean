import SwapCompiler.Proofs.Twin.Scene

/-!
# Code that another plan builds too

What a hop compiles to depends on the network, on the pair and the shape of the trade, on
the frames that wrap and unwrap, and on the adapters of its fills.  It does not depend on
where the hop's route stands in the trade, nor on the numbers of its fills.

* `PlacedHop.Alike` relates hops that differ in these numbers only, each with the list
  from which its adapters are taken.
* `Plan.Carries` says that a plan has all that another one builds hops with.
* Level by level, what the one plan builds is then what the other builds for an alike
  hop; `Plan.hops_carried` says so of whole routes.
-/

namespace SwapCompiler

/-- The same fill, with the same adapter. -/
def PlacedFill.Alike (given others : List Adapter) (placed other : PlacedFill) : Prop :=
  other.fill = placed.fill ∧ others[other.index]? = given[placed.index]?

/-- The same hop at the same place of a route, whose fills have the same adapters. -/
structure PlacedHop.Alike (given others : List Adapter) (hop other : PlacedHop) : Prop where
  first : other.first = hop.first
  last : other.last = hop.last
  fills : List.Forall₂ (PlacedFill.Alike given others) hop.fills other.fills
  hop : other.hop = hop.hop

namespace PlacedHop.Alike

variable {given others : List Adapter} {hop other : PlacedHop}

theorem refl (given : List Adapter) (hop : PlacedHop) : hop.Alike given given hop :=
  ⟨rfl, rfl, List.forall₂_same.2 fun _ _ => ⟨rfl, rfl⟩, rfl⟩

theorem symm (h : hop.Alike given others other) : other.Alike others given hop where
  first := h.first.symm
  last := h.last.symm
  fills := (List.Forall₂.flip h.fills).imp fun _ _ halike => ⟨halike.1.symm, halike.2.symm⟩
  hop := h.hop.symm

/-- Alike hops have twin fills. -/
theorem twin (h : hop.Alike given others other) :
    hop.Twin (PlacedFill.Alike given others) other where
  first := h.first
  last := h.last
  source := by rw [h.hop]
  destination := by rw [h.hop]
  fills := h.fills

/-- So they have the same adapters. -/
theorem adapters_found (h : hop.Alike given others other) {adapters : List Adapter}
    (hfound : hop.adapters given = .ok adapters) : other.adapters others = .ok adapters := by
  rw [PlacedHop.adapters_eq_ok_iff] at hfound ⊢
  have hfills := h.fills
  generalize hop.fills = fills at hfound hfills
  generalize other.fills = partners at hfills ⊢
  induction hfills generalizing adapters with
  | nil => rwa [List.forall₂_nil_left_iff] at hfound ⊢
  | cons halike _ ih =>
      obtain ⟨adapter, later, hadapter, hlater, rfl⟩ := List.forall₂_cons_left_iff.1 hfound
      exact .cons (halike.2.trans hadapter) (ih hlater)

end PlacedHop.Alike

/-- What does not need to be built, or is built alike, is carried over. -/
theorem onlyIf_carried {α : Type} {needed : Bool} {build other : Except Fault α}
    {result : Option α} (h : ∀ value, build = .ok value → other = .ok value)
    (hbuilt : onlyIf needed build = .ok result) : onlyIf needed other = .ok result := by
  obtain ⟨hneeded, hvalue⟩ := onlyIf_eq_ok_iff.1 hbuilt
  exact onlyIf_eq_ok_iff.2 ⟨hneeded, fun value hmem => h value (hvalue value hmem)⟩

namespace Plan

/-- The other plan has all that this plan builds hops with. -/
structure Carries (plan other : Plan) : Prop where
  network : other.network = plan.network
  topology : other.topology = plan.topology
  source : other.trade.source = plan.trade.source
  destination : other.trade.destination = plan.trade.destination
  wrapFrame : ∀ frame, plan.wrapFrame = .ok frame → other.wrapFrame = .ok frame
  unwrapFrame : ∀ flag frame, plan.unwrapFrame flag = .ok frame →
    other.unwrapFrame flag = .ok frame

variable {plan other : Plan} {given others : List Adapter} {scene : HopScene}
  {partner : PlacedHop} {pair : PlacedFill → PlacedFill → Prop} {number : Nat}

theorem Carries.sameTrade (h : plan.Carries other) : plan.SameTrade other :=
  ⟨h.network, h.topology, h.source, h.destination⟩

section

variable (hcarries : plan.Carries other) (htwin : scene.hop.Twin pair partner)

include hcarries htwin

theorem LegBuilt.carried {here : Bool} {fill : Fill} {adapter : Adapter} {leg : Leg}
    (h : plan.LegBuilt scene here fill adapter leg) :
    other.LegBuilt (scene.moved number partner) here fill adapter leg where
  wrap := onlyIf_carried hcarries.wrapFrame h.wrap
  approve := by
    rw [soldToken_twin hcarries.sameTrade htwin (.refl _ adapter), hcarries.network]
    exact h.approve
  call := by
    rw [call_twin hcarries.sameTrade htwin (.refl _ adapter) rfl]
    exact h.call
  call_fits := h.call_fits
  unwrap := by
    rw [hcarries.topology]
    exact onlyIf_carried (hcarries.unwrapFrame _) h.unwrap
  transfer := by
    show onlyIf (partner.last && !adapter.paysRecipient && !scene.nativeDestination)
      (Frame.transfer partner.hop.destination other.network.router fill.destinationAmount >>=
        Frame.checked) = .ok leg.transfer
    rw [htwin.last, htwin.destination, hcarries.network]
    exact h.transfer

theorem PartBuilt.carried {here : Bool} {fill : Fill} {adapter : Adapter} {part : Part}
    (h : plan.PartBuilt scene here fill adapter part) :
    other.PartBuilt (scene.moved number partner) here fill adapter part where
  leg := h.leg.carried hcarries htwin
  share := by
    have hshares := sharesFills_twin hcarries.sameTrade htwin
    show onlyIf (other.sharesFills partner) _ = _
    rw [hshares, fillSource_twin hcarries.sameTrade htwin (.refl _ adapter)]
    exact h.share

theorem parts_carried {fills partners : List PlacedFill}
    (hfills : List.Forall₂ (PlacedFill.Alike given others) fills partners)
    {adapters : List Adapter} {served : Bool} {parts : List Part}
    (h : plan.parts scene served (fills.zip adapters) = .ok parts) :
    other.parts (scene.moved number partner) served (partners.zip adapters) = .ok parts := by
  induction hfills generalizing adapters served parts with
  | nil => exact h
  | cons hfill _ ih =>
      cases adapters with
      | nil => exact h
      | cons adapter rest =>
          obtain ⟨part, hpart, h⟩ := bind_eq_ok_iff.1 h
          obtain ⟨later, hlater, h⟩ := bind_eq_ok_iff.1 h
          -- the wrap is asked for alike, and leaves the same bit for the fills behind
          have hshares : other.sharesFills (scene.moved number partner).hop =
              plan.sharesFills scene.hop :=
            sharesFills_twin hcarries.sameTrade htwin
          have hbuilt : other.PartBuilt (scene.moved number partner) _ _ adapter part :=
            (part_eq_ok_iff.1 hpart).carried hcarries htwin
          have hrest := ih hlater
          rw [← hfill.1] at hbuilt
          rw [List.zip_cons_cons, Plan.parts, hshares]
          exact bind_eq_ok_iff.2 ⟨part, part_eq_ok_iff.2 hbuilt,
            bind_eq_ok_iff.2 ⟨later, hrest, h⟩⟩

end

variable {route placed : PlacedRoute} {hop : PlacedHop} {held : NativeForm}
  (hcarries : plan.Carries other)

section

variable (hhorizontal : placed.horizontal = route.horizontal)

include hcarries hhorizontal

theorem HopBuilt.carried {adapters : List Adapter} {code : HopCode}
    (h : plan.HopBuilt route hop held adapters code)
    (halike : hop.Alike plan.adapters other.adapters partner) :
    other.HopBuilt placed partner held adapters code := by
  have htwins : List.Forall₂ (Adapter.Twin (hop.hop.dealsNatively plan.network)) adapters
      adapters :=
    List.forall₂_same.2 fun adapter _ => .refl _ adapter
  have hscene : other.scene placed partner held adapters =
      (plan.scene route hop held adapters).moved placed.position partner :=
    scene_twin hcarries.sameTrade halike.twin htwins hhorizontal held
  constructor
  · exact halike.adapters_found h.found
  · rw [hscene]
    have hcombination := checkCombination_eq_ok_iff.1 h.combination
    rw [← hcarries.topology] at hcombination
    exact checkCombination_eq_ok_iff.2 hcombination
  · rw [hscene]
    exact parts_carried hcarries halike.twin halike.fills h.parts
  · rw [hscene, hopBranch?_twin hcarries.sameTrade halike.twin htwins]
    exact h.branch
  · rw [hcarries.network, halike.hop, halike.last]
    exact onlyIf_carried (hcarries.unwrapFrame _) h.unwrap
  · rw [hcarries.network, halike.hop]
    exact h.leaves

/-- A route whose hops are alike compiles to the same code. -/
theorem hops_carried {hops partners : List PlacedHop}
    (halike : List.Forall₂ (PlacedHop.Alike plan.adapters other.adapters) hops partners)
    {codes : List HopCode} (h : plan.hops route held hops = .ok codes) :
    other.hops placed held partners = .ok codes := by
  induction halike generalizing held codes with
  | nil => exact h
  | cons hfirst _ ih =>
      obtain ⟨code, later, ⟨adapters, hbuilt⟩, hlater, rfl⟩ := hops_cons_eq_ok_iff.1 h
      exact hops_cons_eq_ok_iff.2
        ⟨code, later, ⟨adapters, hbuilt.carried hcarries hhorizontal hfirst⟩, ih hlater, rfl⟩

end

end Plan

end SwapCompiler
