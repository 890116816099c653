import SwapCompiler.Proofs.Blocks
import SwapCompiler.Proofs.Twin.Hop

/-!
# Twin requests compile alike

`Job.Twin` collects what the compiler looks at: requests that agree in it end alike, with the
same bytes or with the same fault.

* `Plan.Twin` says the same of plans, and `Plan.program_endsAlike` compiles them.
* `Job.Twin.plan` plans twin requests alike, once they have passed their checks.
* `Job.Twin.compile_endsAlike` and `Job.Twin.bytecode_endsAlike` put both together.
-/

namespace SwapCompiler

/-! ## From plans to programs -/

namespace Plan

/-- Plans that settle the same for twin routes. -/
structure Twin (rename : String → String) (plan other : Plan) : Prop where
  same : plan.SameTrade other
  rootWrap : other.rootWrap = plan.rootWrap
  rootUnwrap : other.rootUnwrap = plan.rootUnwrap
  forwardNative : other.forwardNative = plan.forwardNative
  routeCount : other.trade.routes.length = plan.trade.routes.length
  calls : plan.rootNative = true → plan.SameCalls other
  routes : List.Forall₂ (PlacedRoute.Twin (plan.HopTwin rename other)) plan.layout.routes
    other.layout.routes

namespace Twin

variable {rename : String → String} {plan other : Plan} (h : plan.Twin rename other)

include h

theorem nativeSource_eq : other.nativeSource = plan.nativeSource := by
  rw [Job.nativeSource, Job.nativeSource, h.same.network, h.same.source]

theorem routeSource_eq : other.routeSource = plan.routeSource := by
  unfold routeSource
  rw [h.rootWrap, h.nativeSource_eq, h.same.network, h.same.source]

theorem route_endsAlike {route partner : PlacedRoute}
    (hroute : route.Twin (plan.HopTwin rename other) partner) :
    EndsAlike rename (plan.route route) (other.route partner) := by
  have hinitial : other.initialForm = plan.initialForm := by
    rw [initialForm, initialForm, h.rootWrap]
  unfold Plan.route
  rw [hinitial, h.forwardNative, h.routeCount, hroute.position]
  refine EndsAlike.bind ?_ fun _ _ => .of_eq rfl
  exact hops_endsAlike h.same hroute.position hroute.horizontal_eq hroute.hops _

theorem routePart_endsAlike {route partner : PlacedRoute}
    (hroute : route.Twin (plan.HopTwin rename other) partner) :
    EndsAlike rename (plan.routePart route) (other.routePart partner) := by
  unfold routePart
  rw [h.same.topology, h.routeSource_eq, hroute.percent]
  exact (h.route_endsAlike hroute).bind fun _ _ => .of_eq rfl

theorem rootBranch_eq (children : Bytes) :
    other.rootBranch children = plan.rootBranch children := by
  unfold rootBranch rootBranchFlag
  rw [h.rootUnwrap, h.same.network]

theorem program_endsAlike : EndsAlike rename plan.program other.program := by
  have hnative : other.rootNative = plan.rootNative := by
    rw [rootNative, rootNative, h.rootWrap, h.rootUnwrap]
  unfold program
  rw [h.same.topology, hnative, h.rootWrap, h.rootUnwrap]
  refine (EndsAlike.mapM (h.routes.imp fun _ _ hroute => h.routePart_endsAlike hroute)).bind
    fun _ _ => ?_
  refine EndsAlike.bind (.of_eq (by rw [h.rootBranch_eq])) fun _ _ => ?_
  refine EndsAlike.bind (.onlyIf fun hneeded => ?_) fun _ _ => ?_
  · exact .of_eq (h.calls (by simp [rootNative, hneeded])).1
  refine EndsAlike.bind (.onlyIf fun hneeded => ?_) fun _ _ => .of_eq rfl
  exact .of_eq ((h.calls (by simp [rootNative, hneeded])).2 _)

end Twin

end Plan

/-! ## From requests to plans -/

/-- A transfer sends on what the fill buys. -/
def Job.Transfers (job : Job) (site : PlacedHop × PlacedFill) : Prop :=
  site.1.last = true ∧ job.nativeDestination = false ∧
    ∃ adapter ∈ job.adapters[site.2.index]?, adapter.paysRecipient = false

instance (job : Job) (site : PlacedHop × PlacedFill) : Decidable (job.Transfers site) :=
  inferInstanceAs (Decidable (_ ∧ _ ∧ ∃ adapter ∈ job.adapters[site.2.index]?,
    adapter.paysRecipient = false))

/-- Requests that agree in all that is looked at.  Calldata for wrapping is looked at only
if some hop deals with the native asset. -/
structure Job.Twin (rename : String → String) (job other : Job) : Prop where
  network : other.network = job.network
  trade : job.trade.Twin rename other.trade
  adapterCount : other.adapters.length = job.adapters.length
  adapters : ∀ site ∈ job.layout.sites, ∀ adapter counterpart,
    job.adapters[site.2.index]? = some adapter →
      other.adapters[site.2.index]? = some counterpart →
        adapter.Twin (site.1.hop.dealsNatively job.network) counterpart
  amounts : ∀ site ∈ job.layout.sites, ∀ partner ∈ other.layout.sites,
    partner.2.index = site.2.index → job.Transfers site →
      partner.2.fill.destinationAmount = site.2.fill.destinationAmount
  calls : (∃ route ∈ job.trade.routes, ∃ hop ∈ route.hops,
      hop.dealsNatively job.network = true) →
    other.deposit? = job.deposit? ∧ other.withdraw? = job.withdraw?

/-- A hop of the layout is a hop of the trade. -/
theorem Layout.hop_mem_of_mem {trade : Trade} {route : PlacedRoute}
    (hroute : route ∈ (Layout.of trade).routes) {hop : PlacedHop} (hhop : hop ∈ route.hops) :
    route.route ∈ trade.routes ∧ hop.hop ∈ route.route.hops := by
  obtain ⟨r, hr⟩ := List.mem_iff_getElem?.1 hroute
  obtain ⟨_, hplaced, index, hhops⟩ := placed_of_getElem? hr
  obtain ⟨i, hi⟩ := List.mem_iff_getElem?.1 hhop
  rw [hhops, getElem?_placeHops] at hi
  obtain ⟨found, hfound, rfl⟩ := Option.map_eq_some_iff.1 hi
  exact ⟨List.mem_of_getElem? hplaced, List.mem_of_getElem? hfound⟩

/-- A last hop buys what the trade buys. -/
theorem PlacedRoute.Connected.destination_of_last {trade : Trade} {route : PlacedRoute}
    (h : route.Connected trade) {hop : PlacedHop} (hmem : hop ∈ route.hops)
    (hlast : hop.last = true) : hop.hop.destination = trade.destination := by
  obtain ⟨i, hi⟩ := List.mem_iff_getElem?.1 hmem
  have hend : i + 1 = route.hops.length := by
    have hdecided := h.last hi
    rw [hlast] at hdecided
    exact of_decide_eq_true hdecided.symm
  refine h.ends ?_
  rw [List.getLast?_eq_getElem?, ← hend]
  exact hi

theorem Plan.sameCalls_of_eq {plan other : Plan} (hnetwork : other.network = plan.network)
    (hdeposit : other.deposit? = plan.deposit?) (hwithdraw : other.withdraw? = plan.withdraw?) :
    plan.SameCalls other := by
  unfold SameCalls wrapFrame unwrapFrame Job.deposit Job.withdraw
  rw [hdeposit, hwithdraw, hnetwork]
  exact ⟨rfl, fun _ => rfl⟩

/-- The adapters of twin hops are twins. -/
theorem Plan.HopTwin.adaptersAt {rename : String → String} {plan other : Plan}
    {hop partner : PlacedHop} (h : plan.HopTwin rename other hop partner) :
    List.Forall₂ (Adapter.Twin (hop.hop.dealsNatively plan.network)) (plan.adaptersAt hop)
      (other.adaptersAt partner) := by
  obtain ⟨adapters, counterparts, hfound, hgiven, hadapters, _⟩ :=
    exists_sites_of_served h.place.fills
  rw [Job.adaptersAt_eq (PlacedHop.adapters_eq_ok_iff.2 hfound),
    Job.adaptersAt_eq (PlacedHop.adapters_eq_ok_iff.2 hgiven)]
  exact hadapters

namespace Job.Twin

variable {rename : String → String} {job other : Job} (h : job.Twin rename other)

include h

theorem nativeSource_eq : other.nativeSource = job.nativeSource := by
  rw [nativeSource, nativeSource, h.network, h.trade.source]

theorem nativeDestination_eq : other.nativeDestination = job.nativeDestination := by
  rw [nativeDestination, nativeDestination, h.network, h.trade.destination]

section

variable (hconnected : job.trade.Connected)
  (hcount : job.adapters.length = job.trade.fills.length)

include hconnected hcount

/-- Where the layouts have twin fills, these make twins with their adapters. -/
theorem served {route partner : PlacedRoute} (hroute : route ∈ job.layout.routes)
    (hpartner : partner ∈ other.layout.routes) {hop counterpart : PlacedHop}
    (hhop : hop ∈ route.hops) (hcounterpart : counterpart ∈ partner.hops)
    {placed counterFill : PlacedFill} (hplaced : placed ∈ hop.fills)
    (hcounterFill : counterFill ∈ counterpart.fills) (htwin : placed.Twin rename counterFill) :
    PlacedFill.Served rename job.adapters other.adapters (hop.hop.dealsNatively job.network)
      (hop.delivers job.network) placed counterFill := by
  have hsite : (hop, placed) ∈ job.layout.sites :=
    Layout.mem_sites_iff.2 ⟨route, hroute, hhop, hplaced⟩
  have hcounterSite : (counterpart, counterFill) ∈ other.layout.sites :=
    Layout.mem_sites_iff.2 ⟨partner, hpartner, hcounterpart, hcounterFill⟩
  have hindex : placed.index < job.adapters.length := by
    rw [hcount]
    exact index_lt_of_mem hroute hhop hplaced
  have hgiven : job.adapters[placed.index]? = some job.adapters[placed.index] :=
    List.getElem?_eq_getElem hindex
  have hother : placed.index < other.adapters.length := by
    rwa [h.adapterCount]
  have hfound : other.adapters[placed.index]? = some other.adapters[placed.index] :=
    List.getElem?_eq_getElem hother
  refine ⟨_, _, hgiven, by rw [htwin.index, hfound], htwin.fill,
    h.adapters _ hsite _ _ hgiven hfound, ?_⟩
  intro hdelivers hpays
  simp only [PlacedHop.delivers, Bool.and_eq_true, Bool.not_eq_true'] at hdelivers
  obtain ⟨hlast, hforeign⟩ := hdelivers
  rw [(hconnected.placed hroute).destination_of_last hhop hlast] at hforeign
  exact h.amounts _ hsite _ hcounterSite htwin.index ⟨hlast, hforeign, _, hgiven, hpays⟩

theorem hopTwins : List.Forall₂ (PlacedRoute.Twin (job.settled.HopTwin rename other.settled))
    job.layout.routes other.layout.routes := by
  refine forall₂_imp_of_mem (placeRoutes_twin h.trade.routes 0 0)
    fun route hroute partner hpartner htwin => ?_
  refine ⟨htwin.position, htwin.percent, ?_⟩
  refine forall₂_imp_of_mem htwin.hops fun hop hhop counterpart hcounterpart hplaces => ?_
  obtain ⟨hposition, hplaces⟩ := hplaces
  refine ⟨hposition, ?_, ?_⟩
  · refine { hplaces with fills := ?_ }
    exact forall₂_imp_of_mem hplaces.fills fun placed hplaced counterFill hcounterFill hfill =>
      h.served hconnected hcount hroute hpartner hhop hcounterpart hplaced hcounterFill hfill
  · intro hdeals
    obtain ⟨hmem, hhopMem⟩ := Layout.hop_mem_of_mem hroute hhop
    obtain ⟨hdeposit, hwithdraw⟩ := h.calls ⟨_, hmem, _, hhopMem, hdeals⟩
    exact Plan.sameCalls_of_eq h.network hdeposit hwithdraw

/-- Chosen hops that deal with the native asset have adapters that want the same tokens. -/
theorem adaptersOn {place : Nat → Nat}
    (hdeals : ∀ route ∈ job.layout.routes, ∀ hop, route.hops[place route.hops.length]? = some hop →
      hop.hop.dealsNatively job.network = true) :
    List.Forall₂ (Adapter.Twin true) (job.adaptersOn place) (other.adaptersOn place) := by
  have hroutes := (List.forall₂_and_left _ _).2 ⟨hdeals, h.hopTwins hconnected hcount⟩
  refine List.rel_flatMap hroutes fun route partner hroute => ?_
  obtain ⟨hroute, htwin⟩ := hroute
  have hhop := optionRel_getElem? htwin.hops (place route.hops.length)
  rw [← htwin.hops.length_eq]
  generalize partner.hops[place route.hops.length]? = found at hhop ⊢
  cases hchosen : route.hops[place route.hops.length]? with
  | none =>
      rw [hchosen] at hhop
      cases hhop
      exact .nil
  | some hop =>
      rw [hchosen] at hhop
      cases hhop with
      | @some _ counterpart hcounterpart =>
          have hadapters : List.Forall₂ (Adapter.Twin (hop.hop.dealsNatively job.network))
              (job.adaptersAt hop) (other.adaptersAt counterpart) :=
            hcounterpart.adaptersAt
          rw [hroute hop hchosen] at hadapters
          simpa using hadapters

theorem firstAdapters (hnative : job.nativeSource = true) :
    List.Forall₂ (Adapter.Twin true) job.firstAdapters other.firstAdapters := by
  rw [firstAdapters_eq, firstAdapters_eq]
  refine h.adaptersOn hconnected hcount fun route hroute hop hhop => ?_
  rw [Hop.dealsNatively, (hconnected.placed hroute).starts hhop]
  exact Bool.or_eq_true_iff.2 (.inl hnative)

theorem lastAdapters (hnative : job.nativeDestination = true) :
    List.Forall₂ (Adapter.Twin true) job.lastAdapters other.lastAdapters := by
  rw [lastAdapters_eq, lastAdapters_eq]
  refine h.adaptersOn hconnected hcount fun route hroute hop hhop => ?_
  rw [← List.getLast?_eq_getElem?] at hhop
  rw [Hop.dealsNatively, (hconnected.placed hroute).ends hhop]
  exact Bool.or_eq_true_iff.2 (.inr hnative)

omit hcount in
/-- The native asset stands at an end of the trade only if some hop deals with it. -/
theorem calls_of_native (hnative : (job.nativeSource || job.nativeDestination) = true) :
    other.deposit? = job.deposit? ∧ other.withdraw? = job.withdraw? := by
  refine h.calls ?_
  obtain ⟨route, hroute⟩ := List.exists_mem_of_ne_nil _ hconnected.routes_ne_nil
  have hhops := hconnected.hops_ne_nil route hroute
  rcases Bool.or_eq_true_iff.1 hnative with hsource | hdestination
  · refine ⟨route, hroute, _, List.head_mem hhops, ?_⟩
    rw [Hop.dealsNatively, hconnected.starts route hroute _ (List.head?_eq_some_head hhops)]
    exact Bool.or_eq_true_iff.2 (.inl hsource)
  · refine ⟨route, hroute, _, List.getLast_mem hhops, ?_⟩
    rw [Hop.dealsNatively, hconnected.ends route hroute _ (List.getLast?_eq_some_getLast hhops)]
    exact Bool.or_eq_true_iff.2 (.inr hdestination)

theorem wrapsRoot_eq : other.wrapsRoot = job.wrapsRoot := by
  unfold wrapsRoot
  rw [h.trade.topology_eq, h.nativeSource_eq]
  cases hnative : job.nativeSource with
  | false => simp
  | true =>
      have hwraps := h.firstAdapters hconnected hcount hnative
      have hall : other.firstAdapters.all (·.wrapsNative) =
          job.firstAdapters.all (·.wrapsNative) := by
        rw [List.all_eq_not_any_not, List.all_eq_not_any_not, (any_wrapsNative_twin hwraps).2]
      rw [(h.calls_of_native hconnected (by simp [hnative])).1, hall]

theorem unwrapsRoot_eq : other.unwrapsRoot = job.unwrapsRoot := by
  unfold unwrapsRoot
  rw [h.trade.topology_eq, h.nativeDestination_eq]
  cases hnative : job.nativeDestination with
  | false => simp
  | true => rw [(any_wrapsNative_twin (h.lastAdapters hconnected hcount hnative)).1]

theorem forwards_eq : other.forwards = job.forwards := by
  unfold forwards
  rw [h.trade.topology_eq, h.nativeDestination_eq]
  cases hnative : job.nativeDestination with
  | false => rfl
  | true =>
      have hadapters := h.lastAdapters hconnected hcount hnative
      refine congrArg (true && ·) (any_eq_of_forall₂ (hadapters.imp fun _ _ htwin => ?_)).symm
      rw [htwin.paysRecipient, htwin.wrapsNative rfl]

theorem settled : job.settled.Twin rename other.settled := by
  have hwraps := h.wrapsRoot_eq hconnected hcount
  have hunwraps := h.unwrapsRoot_eq hconnected hcount
  refine ⟨⟨h.network, h.trade.topology_eq, h.trade.source, h.trade.destination⟩, hwraps, hunwraps,
    ?_, h.trade.routes.length_eq.symm, fun hroot => ?_, h.hopTwins hconnected hcount⟩
  · show (!other.unwrapsRoot && other.forwards) = (!job.unwrapsRoot && job.forwards)
    rw [hunwraps, h.forwards_eq hconnected hcount]
  · -- what is wrapped or unwrapped for the trade as a whole stands at one of its ends
    have hnative : (job.nativeSource || job.nativeDestination) = true := by
      rcases Bool.or_eq_true_iff.1 hroot with hwrap | hunwrap
      · have hwrap : job.wrapsRoot = true := hwrap
        simp only [wrapsRoot, Bool.and_eq_true] at hwrap
        simp [hwrap.1.1.2]
      · have hunwrap : job.unwrapsRoot = true := hunwrap
        simp only [unwrapsRoot, Bool.and_eq_true] at hunwrap
        simp [hunwrap.1.2]
    obtain ⟨hdeposit, hwithdraw⟩ := h.calls_of_native hconnected hnative
    exact Plan.sameCalls_of_eq h.network hdeposit hwithdraw

end

/-- Twin requests end alike: with the same program, or with the same fault up to exchange
names. -/
theorem compile_endsAlike : EndsAlike rename job.compile other.compile := by
  unfold compile
  have hcheck : EndsAlike rename job.check other.check := by
    rw [check, check, h.adapterCount]
    exact h.trade.check_endsAlike _
  refine hcheck.bind fun _ hpassed => ?_
  obtain ⟨hconnected, hcount⟩ := Trade.connected_of_check hpassed
  have hotherCount : other.adapters.length = other.trade.fills.length := by
    rw [h.adapterCount, hcount, h.trade.fills.length_eq]
  have hunwraps := h.unwrapsRoot_eq hconnected hcount
  rw [Plan.of_eq hcount, Plan.of_eq hotherCount, hunwraps]
  cases hneeded : job.unwrapsRoot with
  | false => exact (h.settled hconnected hcount).program_endsAlike
  | true =>
      have hnative : job.nativeDestination = true := by
        simp only [unwrapsRoot, Bool.and_eq_true] at hneeded
        exact hneeded.1.2
      rw [(h.calls_of_native hconnected (by simp [hnative])).2]
      cases job.withdraw? with
      | none => exact .of_eq rfl
      | some calldata => exact (h.settled hconnected hcount).program_endsAlike

theorem bytecode_endsAlike : EndsAlike rename job.bytecode other.bytecode :=
  h.compile_endsAlike.map Program.bytes

end Job.Twin

end SwapCompiler
