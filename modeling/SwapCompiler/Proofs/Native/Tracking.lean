import SwapCompiler.Proofs.Calls
import SwapCompiler.Proofs.Native.Held

/-!
# Native asset is spent in the form in which it is held

A frame that wraps needs raw asset, an exchange that takes the wrapped token
needs wrapped asset, and a mid-route unwrap needs an exchange that delivered the
wrapped token.  `Job.spendHops?` walks along the frames of a route with the form
that is held and stops where a frame does not find the form that it needs.

* `Job.HopTracked` and `Job.UnwrapsBetween` say which wraps and unwraps stand at
  a hop, given the form in which it is entered.
* `Job.RouteTracked` says so of all hops of a route, and that the walk along the
  route reaches its end.
* `Job.forall₂_routeTracked` proves it of every route of a compiled trade.
-/

namespace SwapCompiler

/-! ## Walking along the frames -/

/-- The form that an exchange takes: an allowance stands in front of it exactly
if it takes a token. -/
def Leg.takes (leg : Leg) : NativeForm :=
  if leg.approve.isSome then .wrapped else .raw

/-- The form in which a leg spends native asset that is held in the given form,
if it can. -/
def Leg.spend? (leg : Leg) (held : NativeForm) : Option NativeForm :=
  if leg.wrap.isSome then
    if held = .raw ∧ leg.takes = .wrapped then some .wrapped else none
  else if leg.takes = held then some held
  else none

/-- The form that is left of the asset of a hop behind its parts.  A share takes
its part of what the hop has found; other parts work on the asset itself. -/
def spendParts? : NativeForm → List Part → Option NativeForm
  | held, [] => some held
  | held, part :: rest => do
      let left ← part.leg.spend? held
      spendParts? (if part.share.isSome then held else left) rest

/-- The form in which exchanges leave the native asset that they have bought,
behind the unwrap of their hop. -/
def HopCode.deliver? (code : HopCode) (adapters : List Adapter) : Option NativeForm :=
  if code.unwrap.isSome then
    if adapters.any (·.wrapsNative) then some .raw else none
  else if adapters.all (·.wrapsNative) then some .wrapped
  else if adapters.any (·.wrapsNative) then none
  else some .raw

namespace Job

/-- The form in which a hop hands native asset on, if each of its frames finds
what it needs.  Behind the last hop nothing is handed on. -/
def spendHop? (job : Job) (held : NativeForm) (hop : PlacedHop) (code : HopCode) :
    Option NativeForm :=
  if job.network.isNative hop.hop.source && (spendParts? held code.parts).isNone then none
  else if job.network.isNative hop.hop.destination && !hop.last then
    code.deliver? (job.adaptersAt hop)
  else some .raw

/-- The walk along the hops of a route. -/
def spendHops? (job : Job) : NativeForm → List (PlacedHop × HopCode) → Option NativeForm
  | held, [] => some held
  | held, (hop, code) :: rest => do
      let left ← job.spendHop? held hop code
      job.spendHops? left rest

/-! ## Tracked hops and routes -/

/-- The wraps of a hop that sells native asset are those that its exchanges
need. -/
structure HopTracked (job : Job) (held : NativeForm) (hop : PlacedHop) (code : HopCode) :
    Prop where
  /-- Every wrap is the wrap of the native asset with the deposit calldata. -/
  frames : ∀ part ∈ code.parts, ∀ frame ∈ part.leg.wrap,
    ∃ deposit, job.deposit? = some deposit ∧ frame = Frame.wrap job.network.wrapped deposit
  /-- Asset that is held wrapped is sold wrapped only, and not wrapped again. -/
  wrapped : held = .wrapped →
    (∀ adapter ∈ job.adaptersAt hop, adapter.wrapsNative = true) ∧
      ∀ part ∈ code.parts, part.leg.wrap = none
  /-- Asset that is held raw is wrapped in front of the exchanges that deal with
  the wrapped token, and in front of no others. -/
  raw : held = .raw → job.trade.topology ≠ .single →
    List.Forall₂ (fun adapter part => part.leg.wrap.isSome = adapter.wrapsNative)
      (job.adaptersAt hop) code.parts
  /-- In a trade of a single hop it is wrapped once, in front of all exchanges, if
  one of them deals with the wrapped token. -/
  single : held = .raw → job.trade.topology = .single →
    ∃ first rest, code.parts = first :: rest ∧
      first.leg.wrap.isSome = (job.adaptersAt hop).any (·.wrapsNative) ∧
      ∀ part ∈ rest, part.leg.wrap = none

/-- Between two hops native asset is unwrapped exactly if it was bought in both
forms, by a frame that reads the native balance. -/
structure UnwrapsBetween (job : Job) (hop : PlacedHop) (code : HopCode) : Prop where
  isSome : code.unwrap.isSome =
    (job.network.isNative hop.hop.destination &&
      (job.adaptersAt hop).any (·.wrapsNative) && (job.adaptersAt hop).any (!·.wrapsNative))
  frame : ∀ frame ∈ code.unwrap, frame.target = job.network.wrapped ∧ frame.flag.code = 7 ∧
    job.withdraw? = some frame.body

/-- The native asset is tracked along a route. -/
structure RouteTracked (job : Job) (rootWrapped : Bool) (route : PlacedRoute)
    (part : RoutePart) : Prop where
  length : part.route.hops.length = route.hops.length
  selling : ∀ (i : Nat) hop code, route.hops[i]? = some hop → part.route.hops[i]? = some code →
    job.network.isNative hop.hop.source = true →
      job.HopTracked (job.heldBefore rootWrapped route.hops i) hop code
  between : ∀ (i : Nat) hop code, route.hops[i]? = some hop →
    part.route.hops[i]? = some code → hop.last = false → job.UnwrapsBetween hop code
  /-- No frame of the route misses the form that it needs. -/
  walk : (job.spendHops? (job.heldBefore rootWrapped route.hops 0)
    (route.hops.zip part.route.hops)).isSome

end Job

namespace Plan

variable {plan : Plan} {route : PlacedRoute} {hop : PlacedHop} {held : NativeForm}
  {adapters : List Adapter} {code : HopCode}

/-! ## Wraps at one hop -/

/-- The wraps of the parts stand at the places for wraps. -/
theorem HopBuilt.forall₂_wrap (h : plan.HopBuilt route hop held adapters code) :
    List.Forall₂ (fun here part => part.leg.wrap.isSome = here)
      (plan.wrapPlaces (plan.scene route hop held adapters) false adapters) code.parts := by
  refine forall₂_of_getElem? ?_ fun k here part hhere hpart => ?_
  · obtain ⟨hadapters, hparts⟩ := h.lengths
    rw [length_wrapPlaces, hadapters, hparts]
  · obtain ⟨placed, adapter, found, _, _, _, hfound, hbuilt⟩ := h.part_built hpart
    obtain rfl := Option.some.inj (hfound.symm.trans hhere)
    exact isSome_of_onlyIf hbuilt.leg.wrap

/-- A hop without places for wraps has none. -/
theorem HopBuilt.wrap_eq_none (h : plan.HopBuilt route hop held adapters code)
    (hplaces : plan.wrapPlaces (plan.scene route hop held adapters) false adapters =
      adapters.map fun _ => false) : ∀ part ∈ code.parts, part.leg.wrap = none := by
  intro part hmem
  have hwrap := h.forall₂_wrap
  rw [hplaces, List.forall₂_map_left_iff] at hwrap
  obtain ⟨_, _, hnone⟩ := exists_mem_of_forall₂ hwrap hmem
  exact Option.not_isSome_iff_eq_none.1 (by simp [hnone])

theorem HopBuilt.wrap_frames (h : plan.HopBuilt route hop held adapters code) :
    ∀ part ∈ code.parts, ∀ frame ∈ part.leg.wrap, ∃ deposit,
      plan.deposit? = some deposit ∧ frame = Frame.wrap plan.network.wrapped deposit := by
  intro part hmem frame hframe
  obtain ⟨k, hk⟩ := List.mem_iff_getElem?.1 hmem
  obtain ⟨_, _, _, _, _, _, _, hbuilt⟩ := h.part_built hk
  obtain ⟨deposit, hdeposit, heq, _⟩ :=
    wrapFrame_eq_ok_iff.1 ((onlyIf_eq_ok_iff.1 hbuilt.leg.wrap).2 frame hframe)
  exact ⟨deposit, hdeposit, heq⟩

/-- Exchanges that share one wrap deal with native asset in one form. -/
theorem HopBuilt.uniform (h : plan.HopBuilt route hop held adapters code)
    (hnative : plan.network.isNative hop.hop.source = true)
    (hshares : plan.sharesFills hop = false) {first other : Adapter}
    (hfirst : first ∈ adapters) (hother : other ∈ adapters) :
    other.wrapsNative = first.wrapsNative := by
  obtain ⟨_, hsingle, _⟩ := checkCombination_eq_ok_iff.1 h.combination
  by_cases htopology : plan.topology = .single
  -- a trade of a single hop has been checked for this, any other hop has one fill
  · cases hany : adapters.any (·.wrapsNative) with
    | false =>
        have hnone := List.any_eq_false.1 hany
        simp [hnone first hfirst, hnone other hother]
    | true =>
        have hall := List.any_eq_false.1 (hsingle htopology hnative hany)
        have hwraps : ∀ adapter ∈ adapters, adapter.wrapsNative = true :=
          fun adapter hmem => by simpa using hall adapter hmem
        rw [hwraps first hfirst, hwraps other hother]
  · have hone := length_fills_le_one htopology hshares
    rw [← h.lengths.1] at hone
    rcases Nat.le_one_iff_eq_zero_or_eq_one.1 hone with hnone | hone
    · rw [List.eq_nil_of_length_eq_zero hnone] at hfirst
      exact nomatch hfirst
    · obtain ⟨adapter, hadapters⟩ := List.length_eq_one_iff.1 hone
      rw [hadapters, List.mem_singleton] at hfirst hother
      rw [hfirst, hother]

/-- The hop's check has made sure that asset held wrapped is sold wrapped. -/
theorem HopBuilt.wraps_of_wrapped (h : plan.HopBuilt route hop held adapters code)
    (hwrapped : (plan.scene route hop held adapters).wrappedSource = true) :
    ∀ adapter ∈ adapters, adapter.wrapsNative = true := by
  obtain ⟨hsale, _⟩ := checkCombination_eq_ok_iff.1 h.combination
  intro adapter hmem
  simpa using List.any_eq_false.1 (hsale hwrapped) adapter hmem

/-- In front of a hop that sells native asset, what wraps is what deals with the
wrapped token. -/
theorem wraps_scene (hnative : plan.network.isNative hop.hop.source = true)
    (adapter : Adapter) :
    (plan.scene route hop held adapters).wraps adapter = adapter.wrapsNative := by
  simp [HopScene.wraps, scene, hnative]

theorem wrappedSource_scene (hnative : plan.network.isNative hop.hop.source = true) :
    (plan.scene route hop held adapters).wrappedSource = decide (held = .wrapped) := by
  simp [scene, hnative]

/-- Raw asset that is not split is wrapped in front of the first exchange, or not
at all. -/
theorem HopBuilt.first_wrap (h : plan.HopBuilt route hop .raw adapters code)
    (hfills : hop.fills ≠ []) (hnative : plan.network.isNative hop.hop.source = true)
    (hshares : plan.sharesFills hop = false) :
    ∃ first rest, code.parts = first :: rest ∧
      first.leg.wrap.isSome = adapters.any (·.wrapsNative) ∧
      ∀ part ∈ rest, part.leg.wrap = none := by
  obtain ⟨first, rest, rfl⟩ := List.exists_cons_of_ne_nil (h.adapters_ne_nil hfills)
  have huniform : ∀ adapter ∈ rest, adapter.wrapsNative = first.wrapsNative :=
    fun adapter hmem =>
      h.uniform hnative hshares List.mem_cons_self (List.mem_cons_of_mem _ hmem)
  have hwrap := h.forall₂_wrap
  rw [wrapPlaces_cons_of_uniform _ _ hshares (wrappedSource_scene hnative) fun adapter hmem => by
      rw [wraps_scene hnative, wraps_scene hnative, huniform adapter hmem],
    List.forall₂_cons_left_iff, wraps_scene hnative] at hwrap
  obtain ⟨part, parts, hpart, hparts, hcode⟩ := hwrap
  refine ⟨part, parts, hcode, ?_, fun other hmem => ?_⟩
  · rw [hpart, List.any_cons]
    cases hfirst : first.wrapsNative with
    | true => rfl
    | false =>
        have hnone : rest.any (·.wrapsNative) = false :=
          List.any_eq_false.2 fun adapter hmem => by simp [huniform adapter hmem, hfirst]
        rw [hnone]
        rfl
  · rw [List.forall₂_map_left_iff] at hparts
    obtain ⟨_, _, hnone⟩ := exists_mem_of_forall₂ hparts hmem
    exact Option.not_isSome_iff_eq_none.1 (by simp [hnone])

theorem HopBuilt.tracked (h : plan.HopBuilt route hop held adapters code)
    (hfills : hop.fills ≠ []) (hnative : plan.network.isNative hop.hop.source = true) :
    plan.HopTracked held hop code := by
  have hfound : plan.adaptersAt hop = adapters := Job.adaptersAt_eq h.found
  refine ⟨h.wrap_frames, ?_, ?_, ?_⟩
  · rintro rfl
    have hwrapped : (plan.scene route hop .wrapped adapters).wrappedSource = true :=
      wrappedSource_scene hnative
    rw [hfound]
    exact ⟨h.wraps_of_wrapped hwrapped,
      h.wrap_eq_none (wrapPlaces_of_wrappedSource _ _ hwrapped false)⟩
  · rintro rfl hsingle
    have hwrap := h.forall₂_wrap
    rw [wrapPlaces_of_ne_single _ _ hsingle h.lengths.1, wrappedSource_scene hnative,
      List.forall₂_map_left_iff] at hwrap
    rw [hfound]
    refine hwrap.imp fun adapter part hpart => ?_
    rw [hpart, wraps_scene hnative]
    simp
  · rintro rfl hsingle
    have htopology : plan.topology = .single := hsingle
    rw [hfound]
    exact h.first_wrap hfills hnative (by simp [sharesFills, htopology])

theorem HopBuilt.unwrapsBetween (h : plan.HopBuilt route hop held adapters code)
    (hlast : hop.last = false) : plan.UnwrapsBetween hop code := by
  obtain ⟨hsome, hframe⟩ := onlyIf_eq_ok_iff.1 h.unwrap
  refine ⟨?_, fun frame hmem => ?_⟩
  · rw [hsome, hlast, Job.adaptersAt_eq h.found]
    simp
  · obtain ⟨withdraw, hwithdraw, hunwrap, _⟩ := unwrapFrame_eq_ok_iff.1 (hframe frame hmem)
    obtain ⟨_, rfl⟩ := Frame.unwrap_eq_ok_iff.1 hunwrap
    exact ⟨rfl, (by decide : Frame.midRouteUnwrapFlag.code = 7), hwithdraw⟩

/-! ## The walk along a route -/

section

variable {scene : HopScene} {here : Bool} {fill : Fill} {adapter : Adapter} {part : Part}

/-- With a wrapped token of its own, an exchange that sells native asset takes
the form that its adapter asks for. -/
theorem LegBuilt.takes_eq {leg : Leg} (h : plan.LegBuilt scene here fill adapter leg)
    (hwrapped : plan.network.isNative plan.network.wrapped = false)
    (hscene : scene.nativeSource = true)
    (hnative : plan.network.isNative scene.hop.hop.source = true) :
    leg.takes = if adapter.wrapsNative then .wrapped else .raw := by
  have happrove := isSome_of_onlyIf h.approve
  rw [Leg.takes, happrove, soldToken, HopScene.wraps, hscene, Bool.true_and]
  cases adapter.wrapsNative <;> simp [hwrapped, hnative]

/-- A leg whose wrap stands where raw asset has to be wrapped finds the form that
it needs. -/
theorem LegBuilt.spend?_eq {leg : Leg} (h : plan.LegBuilt scene here fill adapter leg)
    (hwrapped : plan.network.isNative plan.network.wrapped = false)
    (hscene : scene.nativeSource = true)
    (hnative : plan.network.isNative scene.hop.hop.source = true)
    (hhere : here = (adapter.wrapsNative && held = .raw))
    (hheld : held = .wrapped → adapter.wrapsNative = true) :
    leg.spend? held = some (if adapter.wrapsNative then .wrapped else .raw) := by
  have htakes := h.takes_eq hwrapped hscene hnative
  have hwrap := isSome_of_onlyIf h.wrap
  rw [Leg.spend?, hwrap, htakes, hhere]
  cases held with
  | raw => cases adapter.wrapsNative <;> simp
  | wrapped => simp [hheld rfl]

/-- The form that the next part of a hop finds: what the hop was entered with,
unless an earlier part that was no share has wrapped it. -/
def foundForm (plan : Plan) (scene : HopScene) (wrapped : Bool) : NativeForm :=
  if scene.wrappedSource || (wrapped && !plan.sharesFills scene.hop) then .wrapped else .raw

theorem foundForm_eq_raw (plan : Plan) (scene : HopScene) (served : Bool) :
    decide (plan.foundForm scene served = .raw) =
      (!scene.wrappedSource && (plan.sharesFills scene.hop || !served)) := by
  unfold foundForm
  cases scene.wrappedSource <;> cases plan.sharesFills scene.hop <;> cases served <;> rfl

/-- What a part leaves for the next one, if it finds what it needs. -/
theorem foundForm_or_wrapsAt {served : Bool} (hscene : scene.nativeSource = true)
    (hadapter : plan.foundForm scene served = .wrapped → adapter.wrapsNative = true) :
    plan.foundForm scene (served || plan.wrapsAt scene served adapter) =
      if plan.sharesFills scene.hop then plan.foundForm scene served
      else if adapter.wrapsNative then .wrapped else .raw := by
  revert hadapter
  unfold foundForm wrapsAt HopScene.wraps
  rw [hscene]
  cases scene.wrappedSource <;> cases plan.sharesFills scene.hop <;> cases served <;>
    cases adapter.wrapsNative <;> simp

/-- The parts of a hop that sells native asset all find the form that they
need. -/
theorem isSome_spendParts? (hwrapped : plan.network.isNative plan.network.wrapped = false)
    (hscene : scene.nativeSource = true)
    (hnative : plan.network.isNative scene.hop.hop.source = true) {served : Bool}
    {parts : List Part}
    (huniform : plan.sharesFills scene.hop = false → ∀ first ∈ adapters, ∀ other ∈ adapters,
      other.wrapsNative = first.wrapsNative)
    (hneeds : plan.foundForm scene served = .wrapped →
      ∀ adapter ∈ adapters, adapter.wrapsNative = true)
    (hparts : List.Forall₂ (fun site part => ∃ fill,
        plan.PartBuilt scene site.2 fill site.1 part)
      (adapters.zip (plan.wrapPlaces scene served adapters)) parts) :
    (spendParts? (plan.foundForm scene served) parts).isSome := by
  -- along the walk, what is held wrapped is needed wrapped by all that follow
  induction adapters generalizing served parts with
  | nil =>
      obtain rfl := List.forall₂_nil_left_iff.1 hparts
      rfl
  | cons adapter rest ih =>
      rw [wrapPlaces, List.zip_cons_cons, List.forall₂_cons_left_iff] at hparts
      obtain ⟨part, later, ⟨fill, hpart⟩, hlater, rfl⟩ := hparts
      have hadapter : plan.foundForm scene served = .wrapped → adapter.wrapsNative = true :=
        fun hfound => hneeds hfound adapter List.mem_cons_self
      have hhere : plan.wrapsAt scene served adapter =
          (adapter.wrapsNative && plan.foundForm scene served = .raw) := by
        rw [foundForm_eq_raw, wrapsAt, HopScene.wraps, hscene, Bool.true_and, Bool.and_assoc]
      have hspend := hpart.leg.spend?_eq hwrapped hscene hnative hhere hadapter
      have hnext := plan.foundForm_or_wrapsAt hscene hadapter
      rw [spendParts?, hspend, isSome_of_onlyIf hpart.share, Option.bind_eq_bind,
        Option.bind_some, ← hnext]
      refine ih (fun hshares first hfirst other hother => ?_) (fun hfound other hmem => ?_) hlater
      · exact huniform hshares first (List.mem_cons_of_mem _ hfirst) other
          (List.mem_cons_of_mem _ hother)
      · rw [hnext] at hfound
        cases hshares : plan.sharesFills scene.hop with
        | true =>
            rw [hshares, if_pos rfl] at hfound
            exact hneeds hfound other (List.mem_cons_of_mem _ hmem)
        | false =>
            -- this part has wrapped, so its own adapter speaks for the others
            rw [hshares, if_neg Bool.false_ne_true] at hfound
            rw [huniform hshares adapter List.mem_cons_self other (List.mem_cons_of_mem _ hmem)]
            cases hwraps : adapter.wrapsNative with
            | true => rfl
            | false => simp [hwraps] at hfound

end

theorem HopBuilt.isSome_spendParts? (h : plan.HopBuilt route hop held adapters code)
    (hwrapped : plan.network.isNative plan.network.wrapped = false)
    (hnative : plan.network.isNative hop.hop.source = true) :
    (spendParts? held code.parts).isSome := by
  have hfound : plan.foundForm (plan.scene route hop held adapters) false = held := by
    rw [foundForm, wrappedSource_scene hnative]
    cases held <;> rfl
  rw [← hfound]
  refine plan.isSome_spendParts? hwrapped hnative hnative
    (fun hshares first hfirst other hother => h.uniform hnative hshares hfirst hother)
    (fun hheld => h.wraps_of_wrapped ?_) h.forall₂_partBuilt
  rw [wrappedSource_scene hnative, decide_eq_true_eq]
  exact hfound.symm.trans hheld

/-- What the exchanges of a hop deliver, unwrapped where it was delivered in both
forms, is what the compiler hands on to the next hop. -/
theorem HopBuilt.deliver?_eq (h : plan.HopBuilt route hop held adapters code)
    (hfills : hop.fills ≠ []) (hnative : plan.network.isNative hop.hop.destination = true)
    (hlast : hop.last = false) : code.deliver? adapters = some code.leaves := by
  have hunwrap := isSome_of_onlyIf h.unwrap
  have hraw : adapters.any (!·.wrapsNative) = !adapters.all (·.wrapsNative) :=
    List.not_all_eq_any_not.symm
  rw [HopCode.deliver?, hunwrap, h.leaves_eq_ite hfills hnative, hnative, hlast, hraw]
  cases hall : adapters.all (·.wrapsNative) <;> cases adapters.any (·.wrapsNative) <;> simp

/-- No frame of a hop misses the form that it needs, and the hop leaves the asset
as the compiler says. -/
theorem HopBuilt.spendHop?_eq (h : plan.HopBuilt route hop held adapters code)
    (hwrapped : plan.network.isNative plan.network.wrapped = false) (hfills : hop.fills ≠ []) :
    plan.spendHop? held hop code = some (if hop.last then .raw else code.leaves) := by
  have hsells : (plan.network.isNative hop.hop.source &&
      (spendParts? held code.parts).isNone) = false := by
    cases hnative : plan.network.isNative hop.hop.source with
    | false => rfl
    | true => simp [h.isSome_spendParts? hwrapped hnative]
  rw [Job.spendHop?, hsells, if_neg Bool.false_ne_true]
  cases hlast : hop.last with
  | true => simp
  | false =>
      cases hnative : plan.network.isNative hop.hop.destination with
      | true =>
          have hdeliver := h.deliver?_eq hfills hnative hlast
          rw [Job.adaptersAt_eq h.found]
          simpa using hdeliver
      | false =>
          have hleaves := h.leaves
          rw [hnative] at hleaves
          simp [hleaves]

/-- The walk along the remaining hops of a route reaches their end. -/
theorem isSome_spendHops? (hwrapped : plan.network.isNative plan.network.wrapped = false)
    {hops : List PlacedHop} {codes : List HopCode}
    (hlast : ∀ {i : Nat} {hop : PlacedHop}, hops[i]? = some hop →
      hop.last = decide (i + 1 = hops.length))
    (hfills : ∀ {i : Nat} {hop : PlacedHop}, hops[i]? = some hop → hop.fills ≠ [])
    (h : plan.hops route held hops = .ok codes) :
    (plan.spendHops? held (hops.zip codes)).isSome := by
  -- being the last of a list of hops does not change when a hop in front is taken off
  induction hops generalizing held codes with
  | nil => rfl
  | cons hop rest ih =>
      obtain ⟨code, later, ⟨adapters, hcode⟩, hlater, rfl⟩ := hops_cons_eq_ok_iff.1 h
      have hspend := hcode.spendHop?_eq hwrapped (hfills (i := 0) rfl)
      rw [List.zip_cons_cons, Job.spendHops?, hspend, Option.bind_eq_bind, Option.bind_some]
      cases rest with
      | nil => rfl
      | cons next others =>
          have hhop : hop.last = false := by
            rw [hlast (i := 0) rfl]
            simp
          rw [hhop, if_neg Bool.false_ne_true]
          refine ih (fun {i _} hi => ?_) (fun {i _} hi => hfills (i := i + 1) hi) hlater
          rw [hlast (i := i + 1) hi]
          simp

theorem RouteBuilt.tracked {part : RoutePart} (h : plan.RouteBuilt route part)
    (hroute : route.Connected plan.trade)
    (hwrapped : plan.network.isNative plan.network.wrapped = false) :
    plan.RouteTracked plan.rootWrap route part := by
  refine ⟨length_hops h.hops, fun i hop code hhop hcode hnative => ?_,
    fun i hop code hhop hcode hlast => ?_,
    isSome_spendHops? hwrapped hroute.last hroute.fills_ne_nil h.hops⟩
  · obtain ⟨adapters, hbuilt⟩ := hopBuilt_of_hops h.hops hhop hcode
    rw [entered_eq_heldBefore hroute h.hops hhop hnative] at hbuilt
    exact hbuilt.tracked (hroute.fills_ne_nil hhop) hnative
  · obtain ⟨adapters, hbuilt⟩ := hopBuilt_of_hops h.hops hhop hcode
    exact hbuilt.unwrapsBetween hlast

end Plan

/-- In a compiled trade the native asset is tracked along every route, from the
wrap in front of all routes on: each hop finds it in the form that its frames
need. -/
theorem Job.forall₂_routeTracked {job : Job} {program : Program}
    (hwrapped : job.network.wrapped ≠ job.network.native) (h : job.compile = .ok program) :
    List.Forall₂ (job.RouteTracked program.wrap.isSome) job.layout.routes program.routes := by
  obtain ⟨hcheck, plan, hplan, hbuilt⟩ := Job.compile_eq_ok_iff.1 h
  obtain ⟨rfl, _⟩ := Plan.settled_of_eq_ok hplan
  have hconnected := (Trade.connected_of_check hcheck).1
  rw [isSome_of_onlyIf hbuilt.wrap]
  refine forall₂_of_getElem? hbuilt.routes.length_eq fun r placed part hplaced hpart => ?_
  have hroute := hconnected.placed (List.mem_of_getElem? hplaced)
  have hnative : plan.network.isNative plan.network.wrapped = false := by
    simpa [Network.isNative] using hwrapped
  exact (rel_of_forall₂ hbuilt.routes hplaced hpart).tracked hroute hnative

/-- Native asset is bought in both forms by the first hop and sold in both forms
by the second. -/
def Job.relay : Job :=
  { trade :=
      { source := .ofNat 5
        destination := .ofNat 6
        sourceAmount := 1000
        destinationAmount := 5
        routes :=
          [⟨100.0, [⟨.ofNat 5, .ofNat 3, [⟨"first", 50.0, 500, 1⟩, ⟨"second", 50.0, 501, 1⟩]⟩,
            ⟨.ofNat 3, .ofNat 6, [⟨"third", 50.0, 300, 1⟩, ⟨"fourth", 50.0, 301, 2⟩]⟩]⟩] }
    adapters := [.small 11 500 true false, .small 12 501 false false, .small 13 300 true false,
      .small 14 301 false true]
    wrapCalls := some ⟨some [5, 6, 7, 8], some ([1, 1, 1, 1] ++ Bytes.word 0)⟩
    network := .small }

theorem Job.forall₂_routeTracked_relay : ∃ program, relay.compile = .ok program ∧
    List.Forall₂ (relay.RouteTracked program.wrap.isSome) relay.layout.routes
      program.routes := by
  obtain ⟨program, hprogram⟩ : ∃ program, relay.compile = .ok program :=
    exists_eq_ok_of_isSome (by decide +kernel)
  exact ⟨program, hprogram, forall₂_routeTracked (by decide) hprogram⟩

end SwapCompiler
