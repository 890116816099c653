import SwapCompiler.Proofs.Built.Contents
import SwapCompiler.Proofs.FlagTables
import SwapCompiler.Proofs.Native.Tracking
import SwapCompiler.Proofs.Walk

/-!
# Who is to blame for a missing pattern

The compiler searches for tokens and amounts in exchange calls, allowances, transfers,
shares and branches.  Only the first of these searches can fail, and only for a
pattern that the adapter of the exchange should have supplied: whatever else is searched
for was put there by an earlier step.

* `Plan.Blamed` names the fill, how the compiler came to it, and what its call lacks.
* `Plan.SearchesSucceed` says that no other search fails.
* `Plan.hop_failsOnly` and `Plan.routePart_failsOnly` say so of the steps of each level, of
  whatever sort the faults of exchange calls are.
* `Job.blamed_of_pattern_absent` puts it together for a valid trade.
-/

namespace SwapCompiler

namespace Plan

variable {plan : Plan} {route : PlacedRoute} {hop : PlacedHop} {held : NativeForm}
  {adapters : List Adapter}

/-- The fault is that of one exchange call whose adapter has not supplied what the call
needs. -/
structure Blamed (plan : Plan) (fault : Fault) (route : PlacedRoute) (hop : PlacedHop)
    (held : NativeForm) (placed : PlacedFill) (adapter : Adapter) : Prop where
  route_mem : route ∈ plan.layout.routes
  reached : plan.Reaches route hop held
  fill_mem : placed ∈ hop.fills
  adapter_at : plan.adapters[placed.index]? = some adapter
  fails : ∃ cause,
    (plan.call (plan.scene route hop held (plan.adaptersAt hop)) placed.fill adapter).frame =
        .error cause ∧
      fault = cause.locate ⟨placed.fill.exchange, hop.position, route.position⟩
  lacks : (plan.call (plan.scene route hop held (plan.adaptersAt hop)) placed.fill
    adapter).LacksPattern

/-- The searches outside exchange calls succeed, each on whatever the steps before it
have built. -/
structure SearchesSucceed (plan : Plan) : Prop where
  /-- The share of a fill stands at the front of its code, or is taken from the native
  balance. -/
  fills : ∀ (route : PlacedRoute) (hop : PlacedHop) (held : NativeForm) (adapters : List Adapter)
    (served : Bool) (fill : Fill) (adapter : Adapter) (leg : Leg), adapter ∈ adapters →
    plan.checkCombination (plan.scene route hop held adapters) adapters = .ok () →
    plan.leg (plan.scene route hop held adapters)
      (plan.wrapsAt (plan.scene route hop held adapters) served adapter) fill adapter = .ok leg →
    ∃ position, Share.positionOf fill.percent
        (plan.fillSource (plan.scene route hop held adapters) adapter) (codeBytes leg.code) =
          .ok position ∧
      (position = 0 ∨ position = Share.nativePosition)
  /-- So the headers of compiled parts carry nothing else. -/
  headers : ∀ (route : PlacedRoute) (hop : PlacedHop) (held : NativeForm) (code : HopCode),
    plan.hop route hop held = .ok code → ∀ part ∈ code.parts, ∀ share ∈ part.share,
      share.position = 0 ∨ share.position = Share.nativePosition
  /-- The share of a route finds its source. -/
  routes : ∀ route ∈ plan.layout.routes, ∀ code, plan.route route = .ok code →
    ∃ position,
      Share.positionOf route.route.percent plan.routeSource (codeBytes code.code) = .ok position
  /-- The branch of a hop finds its token. -/
  branches : ∀ route ∈ plan.layout.routes, ∀ hop ∈ route.hops, ∀ (held : NativeForm)
    (adapters : List Adapter) (parts : List Part) (flag : Flag),
    hop.adapters plan.adapters = .ok adapters →
    plan.parts (plan.scene route hop held adapters) false (hop.fills.zip adapters) = .ok parts →
    plan.branchFlag? hop adapters = some flag →
    ∃ branch, Branch.of plan.network.executor flag
      (some (if plan.network.isNative hop.hop.destination then plan.network.wrapped
        else hop.hop.destination)) (codeBytes (parts.flatMap Part.code)) = .ok branch
  /-- Allowances and transfers of amounts that fit in a word find their amount. -/
  approve : ∀ (token spender : Address) (amount : Nat), amount < Bytes.capacity 32 →
    ∃ frame, Frame.approve token spender amount = .ok frame
  transfer : ∀ (token recipient : Address) (amount : Nat), amount < Bytes.capacity 32 →
    ∃ frame, Frame.transfer token recipient amount = .ok frame

/-! ## What an exchange sells and receives -/

theorem soldToken_scene (adapter : Adapter) :
    plan.soldToken (plan.scene route hop held adapters) adapter =
      plan.network.dealt adapter hop.hop.source :=
  rfl

theorem receivedToken_scene (adapter : Adapter) :
    plan.receivedToken (plan.scene route hop held adapters) adapter =
      plan.network.dealt adapter hop.hop.destination :=
  rfl

/-! ## Shares -/

section

variable {adapter : Adapter} {served : Bool} {fill : Fill} {leg : Leg}

/-- A fill whose share is taken from a token has an exchange that sells it, and nothing
is wrapped in front of that exchange. -/
theorem sold_of_fillSource (served : Bool)
    (hwrapped : plan.network.isNative plan.network.wrapped = false)
    (hcombination : plan.checkCombination (plan.scene route hop held adapters) adapters = .ok ())
    (hmem : adapter ∈ adapters)
    (hsource : ((plan.scene route hop held adapters).nativeSource &&
      !(plan.scene route hop held adapters).wrappedSource) = false) :
    plan.network.isNative (plan.soldToken (plan.scene route hop held adapters) adapter) = false ∧
      plan.wrapsAt (plan.scene route hop held adapters) served adapter = false := by
  have hplace : plan.wrapsAt (plan.scene route hop held adapters) served adapter = false := by
    rw [wrapsAt, HopScene.wraps, Bool.and_right_comm _ adapter.wrapsNative, hsource]
    rfl
  refine ⟨?_, hplace⟩
  rw [soldToken_scene, Network.dealt]
  cases hnative : plan.network.isNative hop.hop.source with
  | false =>
      rw [Bool.false_and, if_neg Bool.false_ne_true]
      exact hnative
  | true =>
      -- the asset is held wrapped, and the check has refused exchanges that want it raw
      have hheld : (plan.scene route hop held adapters).wrappedSource = true := by
        have hscene : (plan.scene route hop held adapters).nativeSource = true := hnative
        rw [hscene] at hsource
        simpa using hsource
      have hall := List.any_eq_false.1 ((checkCombination_eq_ok_iff.1 hcombination).1 hheld)
      have hwraps : adapter.wrapsNative = true := by simpa using hall adapter hmem
      rw [hwraps]
      exact hwrapped

theorem exists_position_fill (hwrapped : plan.network.isNative plan.network.wrapped = false)
    (hcombination : plan.checkCombination (plan.scene route hop held adapters) adapters = .ok ())
    (hmem : adapter ∈ adapters)
    (hleg : plan.LegBuilt (plan.scene route hop held adapters)
      (plan.wrapsAt (plan.scene route hop held adapters) served adapter) fill adapter leg) :
    ∃ position, Share.positionOf fill.percent
        (plan.fillSource (plan.scene route hop held adapters) adapter) (codeBytes leg.code) =
          .ok position ∧
      (position = 0 ∨ position = Share.nativePosition) := by
  unfold Share.positionOf fillSource
  by_cases hwhole : Share.isWhole fill.percent = true
  · exact ⟨0, if_pos hwhole, .inl rfl⟩
  rw [if_neg hwhole]
  cases hsource : (plan.scene route hop held adapters).nativeSource &&
      !(plan.scene route hop held adapters).wrappedSource with
  | true => exact ⟨Share.nativePosition, rfl, .inr rfl⟩
  | false =>
      obtain ⟨hsold, hplace⟩ :=
        sold_of_fillSource served hwrapped hcombination hmem hsource
      rw [hplace] at hleg
      have hfound := Bytes.firstIndex?_eq_zero (Address.bytes_ne_nil _) (hleg.prefix_of_sold hsold)
      exact ⟨0, locate_eq_ok_iff.2 hfound, .inl rfl⟩

/-- Where a wrap stands is decided fill by fill. -/
theorem exists_served_of_wrapPlaces {scene : HopScene} {k : Nat} {here : Bool}
    (hhere : (plan.wrapPlaces scene served adapters)[k]? = some here)
    (hadapter : adapters[k]? = some adapter) :
    ∃ before, here = plan.wrapsAt scene before adapter := by
  induction adapters generalizing served k with
  | nil => exact nomatch hadapter
  | cons first rest ih =>
      cases k with
      | zero =>
          obtain rfl := Option.some.inj hadapter
          exact ⟨served, (Option.some.inj hhere).symm⟩
      | succ k => exact ih hhere hadapter

theorem HopBuilt.position_share {code : HopCode}
    (hwrapped : plan.network.isNative plan.network.wrapped = false)
    (h : plan.HopBuilt route hop held adapters code) {part : Part} (hpart : part ∈ code.parts)
    {share : Share} (hshare : part.share = some share) :
    share.position = 0 ∨ share.position = Share.nativePosition := by
  obtain ⟨k, hk⟩ := List.mem_iff_getElem?.1 hpart
  obtain ⟨placed, adapter, here, _, hadapter, _, hhere, hbuilt⟩ := h.part_built hk
  obtain ⟨before, rfl⟩ := exists_served_of_wrapPlaces hhere hadapter
  obtain ⟨position, hposition, hvalue⟩ :=
    exists_position_fill hwrapped h.combination (List.mem_of_getElem? hadapter) hbuilt.leg
  have hof := Share.of_eq_ok_iff.1 ((onlyIf_eq_ok_iff.1 hbuilt.share).2 share hshare)
  obtain rfl : position = share.position := Except.ok.inj (hposition.symm.trans hof.1)
  exact hvalue

end

/-- The token that every exchange of a route's first hop sells stands in the route. -/
theorem sold_infix_route {code : RouteCode} {token : Address}
    (hhops : plan.hops route plan.initialForm route.hops = .ok code.hops)
    (hhop : route.hops[0]? = some hop) (hfills : hop.fills ≠ [])
    (htoken : plan.network.isNative token = false)
    (hsold : ∀ adapter ∈ plan.adaptersAt hop, plan.network.dealt adapter hop.hop.source = token) :
    token.bytes <:+: codeBytes code.code := by
  obtain ⟨first, adapters, hfirst, hbuilt⟩ := exists_hopBuilt_of_hops hhops hhop
  obtain ⟨adapter, hmem⟩ := List.exists_mem_of_ne_nil _ (hbuilt.adapters_ne_nil hfills)
  obtain ⟨part, hpart, here, fill, hpartBuilt⟩ :=
    exists_part_of_mem hbuilt.lengths.1.symm hbuilt.parts hmem
  have hdealt := hsold adapter (by rwa [Job.adaptersAt_eq hbuilt.found])
  obtain ⟨frame, hframe, hstands⟩ := hpartBuilt.leg.infix_of_sold (by
    rw [soldToken_scene, hdealt]
    exact htoken)
  rw [soldToken_scene, hdealt] at hstands
  refine hstands.trans (frame_infix_codeBytes code.code ?_)
  exact RouteCode.mem_codeFrames_code (List.mem_of_getElem? hfirst)
    (HopCode.mem_codeFrames_code (mem_codeFrames_parts hpart hframe))

theorem Settled.wrapsNative_of_rootWrap (h : plan.Settled) (hroot : plan.rootWrap = true)
    (hroute : route ∈ plan.layout.routes) (hhop : route.hops[0]? = some hop) :
    plan.nativeSource = true ∧ ∀ adapter ∈ plan.adaptersAt hop, adapter.wrapsNative = true := by
  have hsettled := h.rootWrap
  rw [hroot] at hsettled
  have hparts := hsettled.symm
  rw [Bool.and_eq_true, Bool.and_eq_true, Bool.and_eq_true] at hparts
  obtain ⟨⟨⟨_, hnative⟩, _⟩, hall⟩ := hparts
  refine ⟨hnative, fun adapter hadapter => List.all_eq_true.1 hall adapter ?_⟩
  refine List.mem_flatMap.2 ⟨hop, List.mem_filterMap.2 ⟨route, hroute, ?_⟩, hadapter⟩
  rw [List.head?_eq_getElem?]
  exact hhop

/-- The share of a route finds the token that the route starts with. -/
theorem exists_position_route (hwrapped : plan.network.isNative plan.network.wrapped = false)
    (hsettled : plan.Settled) (hroute : route ∈ plan.layout.routes)
    (hconnected : route.Connected plan.trade) (code : RouteCode)
    (hhops : plan.hops route plan.initialForm route.hops = .ok code.hops) (percent : Float) :
    ∃ position, Share.positionOf percent plan.routeSource (codeBytes code.code) = .ok position := by
  obtain ⟨hop, hhop⟩ : ∃ hop, route.hops[0]? = some hop :=
    ⟨_, List.getElem?_eq_getElem (List.length_pos_iff.2 hconnected.hops_ne_nil)⟩
  have hfills := hconnected.fills_ne_nil hhop
  have hstart := hconnected.starts hhop
  unfold Share.positionOf routeSource
  by_cases hwhole : Share.isWhole percent = true
  · exact ⟨0, if_pos hwhole⟩
  rw [if_neg hwhole]
  cases hroot : plan.rootWrap with
  | true =>
      obtain ⟨hnative, hwraps⟩ := hsettled.wrapsNative_of_rootWrap hroot hroute hhop
      have hsource : plan.network.isNative hop.hop.source = true := by
        rw [hstart]
        exact hnative
      refine (exists_locate_iff _ (Address.bytes_ne_nil _)).2
        (sold_infix_route hhops hhop hfills hwrapped fun adapter hmem => ?_)
      rw [Network.dealt, hsource, hwraps adapter hmem]
      rfl
  | false =>
      cases hnative : plan.nativeSource with
      | true => exact ⟨Share.nativePosition, rfl⟩
      | false =>
          have hsource : plan.network.isNative plan.trade.source = false := hnative
          refine (exists_locate_iff _ (Address.bytes_ne_nil _)).2
            (sold_infix_route hhops hhop hfills hsource fun adapter _ => ?_)
          rw [hstart, Network.dealt, hsource]
          rfl

/-! ## Branches -/

/-- Some exchange of a hop delivers the token that the branch around the hop looks
for. -/
theorem exists_dealt_of_branchFlag (hne : adapters ≠ []) {flag : Flag}
    (hflag : plan.branchFlag? hop adapters = some flag) (hchecks : flag.checksToken = true) :
    ∃ adapter ∈ adapters, plan.network.dealt adapter hop.hop.destination =
      if plan.network.isNative hop.hop.destination then plan.network.wrapped
      else hop.hop.destination := by
  obtain ⟨first, hfirst⟩ := List.exists_mem_of_ne_nil _ hne
  cases hnative : plan.network.isNative hop.hop.destination with
  | false => exact ⟨first, hfirst, by rw [Network.dealt, hnative]; rfl⟩
  | true =>
      have hwrapping : adapters.any (·.wrapsNative) = true := by
        unfold branchFlag? at hflag
        split at hflag
        · rw [← Option.some.inj hflag] at hchecks
          refine BranchFacts.anyWrapping_of_check hnative (of_decide_eq_true hchecks) ?_
          cases hwraps : first.wrapsNative with
          | true => exact .inl (List.any_eq_true.2 ⟨first, hfirst, hwraps⟩)
          | false => exact .inr (List.any_eq_true.2 ⟨first, hfirst, by rw [hwraps]; rfl⟩)
        · exact nomatch hflag
      obtain ⟨adapter, hmem, hwraps⟩ := List.any_eq_true.1 hwrapping
      refine ⟨adapter, hmem, ?_⟩
      rw [Network.dealt, hnative, hwraps]
      rfl

theorem exists_hopBranch (hwrapped : plan.network.isNative plan.network.wrapped = false)
    (hfills : hop.fills ≠ []) (hadapters : hop.adapters plan.adapters = .ok adapters)
    {parts : List Part}
    (hparts : plan.parts (plan.scene route hop held adapters) false (hop.fills.zip adapters) =
      .ok parts) {flag : Flag} (hflag : plan.branchFlag? hop adapters = some flag) :
    ∃ branch, Branch.of plan.network.executor flag
      (some (if plan.network.isNative hop.hop.destination then plan.network.wrapped
        else hop.hop.destination)) (codeBytes (parts.flatMap Part.code)) = .ok branch := by
  have hlength := (PlacedHop.adapters_eq_ok_iff.1 hadapters).length_eq
  have hne : adapters ≠ [] := by
    rintro rfl
    exact hfills (List.eq_nil_of_length_eq_zero hlength)
  refine Branch.exists_of fun hchecks => ?_
  obtain ⟨adapter, hmem, hdealt⟩ := exists_dealt_of_branchFlag hne hflag hchecks
  -- the scene has told that exchange to expose the word
  have hexposes : (plan.scene route hop held adapters).exposesDestination = true := by
    show (plan.branchFlag? hop adapters).any (·.checksToken) = true
    rw [hflag]
    exact hchecks
  have hforeign : plan.network.isNative
      (plan.receivedToken (plan.scene route hop held adapters) adapter) = false := by
    rw [receivedToken_scene, hdealt]
    split
    · exact hwrapped
    · next hnative => exact Bool.eq_false_iff.2 hnative
  obtain ⟨frame, hframe, hstands⟩ := received_infix_parts hlength hparts hmem fun fill => by
    rw [needsToken_call, hexposes, hforeign]
    simp
  rw [receivedToken_scene, hdealt] at hstands
  exact (hstands.trans (frame_infix_codeBytes _ hframe)).trans (Branch.children_infix_body _)

/-! ## The searches -/

theorem searchesSucceed (hwrapped : plan.network.isNative plan.network.wrapped = false)
    (hsettled : plan.Settled) (hconnected : plan.trade.Connected) : plan.SearchesSucceed := by
  constructor
  · intro route hop held adapters served fill adapter leg hmem hcombination hleg
    exact exists_position_fill hwrapped hcombination hmem (leg_eq_ok_iff.1 hleg)
  · intro route hop held code hcode part hpart share hshare
    obtain ⟨adapters, hbuilt⟩ := hop_eq_ok_iff.1 hcode
    exact hbuilt.position_share hwrapped hpart hshare
  · intro route hroute code hcode
    obtain ⟨hops, hhops, hcode⟩ := bind_eq_ok_iff.1 hcode
    obtain ⟨forward, _, hcode⟩ := bind_eq_ok_iff.1 hcode
    obtain rfl := Except.ok.inj hcode
    exact exists_position_route hwrapped hsettled hroute (hconnected.placed hroute) _ hhops _
  · intro route hroute hop hmem held adapters parts flag hadapters hparts hflag
    obtain ⟨i, hhop⟩ := List.mem_iff_getElem?.1 hmem
    have hfills := (hconnected.placed hroute).fills_ne_nil hhop
    exact exists_hopBranch hwrapped hfills hadapters hparts hflag
  · intro token spender amount hfits
    exact Frame.exists_ofAmountCall hfits
  · intro token recipient amount hfits
    exact Frame.exists_ofAmountCall hfits

/-! ## What stops the compiler

In the lemmas below `sort` holds of every fault but those of missing patterns, and of
the faults of exchange calls. -/

section

variable {sort : Fault → Prop} (hother : ∀ fault, fault.kind ≠ .pattern → sort fault)

include hother

theorem legSteps_of_call {scene : HopScene} {here : Bool} {fill : Fill} {adapter : Adapter}
    (hcall : ∀ cause, (plan.call scene fill adapter).frame = .error cause →
      sort (cause.locate ⟨fill.exchange, scene.hop.position, scene.route⟩)) :
    plan.LegSteps sort scene here fill adapter := by
  have hchecked : ∀ frame : Frame, FailsOnly sort frame.checked :=
    fun frame => frame.checked_findsPatterns.mono hother
  have hamount : ∀ selector token party amount, FailsOnly sort
      (Frame.ofAmountCall selector token party amount >>= Frame.checked) :=
    fun selector token party amount =>
      ((Frame.ofAmountCall_findsPatterns selector token party amount).mono hother).bind
        fun frame _ => hchecked frame
  exact
    { wrap := fun _ => plan.wrapFrame_findsPatterns.mono hother
      approve := fun _ => hamount _ _ _ _
      call := hcall
      call_checked := fun frame _ => hchecked frame
      unwrap := fun _ _ => (plan.unwrapFrame_findsPatterns _).mono hother
      transfer := fun _ => hamount _ _ _ _ }

theorem hop_failsOnly (hwrapped : plan.network.isNative plan.network.wrapped = false)
    (hfills : hop.fills ≠ [])
    (hcall : ∀ placed ∈ hop.fills, ∀ adapter, plan.adapters[placed.index]? = some adapter →
      ∀ cause, (plan.call (plan.scene route hop held (plan.adaptersAt hop)) placed.fill
        adapter).frame = .error cause →
          sort (cause.locate ⟨placed.fill.exchange, hop.position, route.position⟩)) :
    FailsOnly sort (plan.hop route hop held) := by
  refine hop_failsOnly_of_steps ((hop.adapters_findsPatterns plan.adapters).mono hother)
    fun adapters hfound => ?_
  rw [Job.adaptersAt_eq hfound] at hcall
  constructor
  · exact (plan.checkCombination_findsPatterns _ _).mono hother
  · intro placed hplaced adapter _ hgiven served
    exact legSteps_of_call hother (hcall placed hplaced adapter hgiven)
  · intro fill adapter hadapter served leg hcombination hleg
    obtain ⟨position, hposition, _⟩ :=
      exists_position_fill hwrapped hcombination hadapter hleg
    exact (Share.of_findsPatterns ⟨position, hposition⟩).mono hother
  · intro parts flag hparts hflag
    obtain ⟨branch, hbranch⟩ := exists_hopBranch hwrapped hfills hfound hparts hflag
    exact (FailsOnly.of_eq_ok hbranch).bind fun _ _ =>
      ((Frame.checked_findsPatterns _).mono hother).bind fun _ _ => .ok _
  · intro _
    exact (plan.unwrapFrame_findsPatterns _).mono hother

theorem routePart_failsOnly (hwrapped : plan.network.isNative plan.network.wrapped = false)
    (hsettled : plan.Settled) (hroute : route ∈ plan.layout.routes)
    (hconnected : route.Connected plan.trade)
    (hhop : ∀ hop held, plan.Reaches route hop held → FailsOnly sort (plan.hop route hop held)) :
    FailsOnly sort (plan.routePart route) := by
  have hsteps : plan.RouteSteps sort route := by
    refine ⟨hhop, fun code hcode => ?_⟩
    obtain ⟨hops, hbuilt, hcode⟩ := bind_eq_ok_iff.1 hcode
    obtain ⟨forward, _, hcode⟩ := bind_eq_ok_iff.1 hcode
    obtain rfl := Except.ok.inj hcode
    exact (Share.of_findsPatterns (exists_position_route hwrapped hsettled hroute hconnected
      ⟨hops, forward⟩ hbuilt route.route.percent)).mono hother
  exact hsteps.failsOnly

end

end Plan

/-- If a pattern is missing while the routes of a valid trade are built, then it is
missing from the call of one exchange, for want of what its adapter should have
supplied.  Every other search succeeds. -/
theorem Job.blamed_of_pattern_absent {job : Job} {plan : Plan}
    (hwrapped : job.network.wrapped ≠ job.network.native) (hcheck : job.check = .ok ())
    (hplan : Plan.of job = .ok plan) :
    (∀ fault, plan.routes = .error fault → fault.kind = .pattern →
      ∃ route hop held placed adapter, plan.Blamed fault route hop held placed adapter) ∧
      plan.SearchesSucceed := by
  obtain ⟨rfl, hsettled⟩ := Plan.settled_of_eq_ok hplan
  have hconnected := (Trade.connected_of_check hcheck).1
  have hforeign : plan.network.isNative plan.network.wrapped = false := by
    simpa [Network.isNative] using hwrapped
  refine ⟨?_, Plan.searchesSucceed hforeign hsettled hconnected⟩
  have hother : ∀ fault : Fault, fault.kind ≠ .pattern → fault.kind = .pattern →
      ∃ route hop held placed adapter, plan.Blamed fault route hop held placed adapter :=
    fun _ hkind hpattern => absurd hpattern hkind
  refine FailsOnly.mapM fun route hroute => ?_
  have hplaced := hconnected.placed hroute
  refine Plan.routePart_failsOnly hother hforeign hsettled hroute hplaced
    fun hop held hreached => ?_
  obtain ⟨i, hhop⟩ : ∃ i : Nat, route.hops[i]? = some hop := by
    obtain ⟨i, _, hhop, _⟩ := hreached
    exact ⟨i, hhop⟩
  refine Plan.hop_failsOnly hother hforeign (hplaced.fills_ne_nil hhop)
    fun placed hfill adapter hadapter cause hfails hkind => ?_
  rw [Fault.kind_locate] at hkind
  refine ⟨route, hop, held, placed, adapter, hroute, hreached, hfill, hadapter,
    ⟨cause, hfails, rfl⟩, ?_⟩
  by_contra hlacks
  exact Call.frame_findsPatterns_iff.2 hlacks cause hfails hkind

/-- The relay, whose last exchange has been given calldata without its amount. -/
def Job.unmarked : Job :=
  { relay with
    adapters := [.small 11 500 true false, .small 12 501 false false, .small 13 300 true false,
      { Adapter.small 14 301 false true with calldata := [1, 2, 3, 4] }] }

theorem Job.blamed_of_pattern_absent_unmarked : ∃ plan fault, Plan.of unmarked = .ok plan ∧
    plan.routes = .error fault ∧ fault.kind = .pattern ∧
    (∃ route hop held placed adapter, plan.Blamed fault route hop held placed adapter) ∧
    plan.SearchesSucceed := by
  let plan : Plan :=
    { toJob := unmarked, rootWrap := false, rootUnwrap := false, forwardNative := false }
  have hplan : Plan.of unmarked = .ok plan := rfl
  have hfails : plan.routes =
      .error (.patternAbsent "source amount" (Bytes.word 301) 4 (some ⟨"fourth", 1, 0⟩)) := by
    decide +kernel
  obtain ⟨hblamed, hsearches⟩ :=
    blamed_of_pattern_absent (by decide) (by decide +kernel) hplan
  exact ⟨plan, _, hplan, hfails, rfl, hblamed _ hfails rfl, hsearches⟩

end SwapCompiler
