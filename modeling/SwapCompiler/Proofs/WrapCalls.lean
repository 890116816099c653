import SwapCompiler.Proofs.Built.Carried
import SwapCompiler.Proofs.Native.Tracking
import SwapCompiler.Proofs.Settled

/-!
# More calldata for the wrapped token

A trade that compiles has been given all calldata that it needs.  More of it changes
nothing: `Job.bytecode_supply`.

Withdraw calldata is only asked for where it is needed.  Deposit calldata is also asked
for its mere presence, which decides whether the native source is wrapped in front of all
routes.  It cannot turn that decision around: where every exchange of every first hop wants
the wrapped token, and nothing is wrapped in front of the routes, the first hops need
wraps of their own (`Plan.ProgramBuilt.exists_deposit`).
-/

namespace SwapCompiler

/-- All calldata that is given is given again, unchanged; there may be more. -/
structure Supplies (given more : Option WrapCalls) : Prop where
  deposit : ∀ calldata, given.bind (·.deposit) = some calldata →
    more.bind (·.deposit) = some calldata
  withdraw : ∀ calldata, given.bind (·.withdraw) = some calldata →
    more.bind (·.withdraw) = some calldata

/-- The same trade on the same network, with other calldata for the wrapped token. -/
def Job.supply (job : Job) (more : Option WrapCalls) : Job :=
  { job with wrapCalls := more }

namespace Plan

variable {plan : Plan} {program : Program}

/-- A trade that sells raw native asset to exchanges that all want the wrapped token
wraps it somewhere, and not without deposit calldata. -/
theorem ProgramBuilt.exists_deposit (h : plan.ProgramBuilt program)
    (hconnected : plan.trade.Connected) (htopology : plan.topology ≠ .single)
    (hnative : plan.nativeSource = true) (hroot : plan.rootWrap = false)
    (hwraps : plan.firstAdapters.all (·.wrapsNative) = true) :
    ∃ deposit, plan.deposit? = some deposit := by
  obtain ⟨route, hroute⟩ : ∃ route, plan.layout.routes[0]? = some route := by
    refine ⟨_, List.getElem?_eq_getElem ?_⟩
    show 0 < (placeRoutes 0 0 plan.trade.routes).length
    rw [length_placeRoutes]
    exact List.length_pos_iff.2 hconnected.routes_ne_nil
  have hmem := List.mem_of_getElem? hroute
  have hplaced := hconnected.placed hmem
  obtain ⟨hop, hhop⟩ : ∃ hop, route.hops[0]? = some hop :=
    ⟨_, List.getElem?_eq_getElem (List.length_pos_iff.2 hplaced.hops_ne_nil)⟩
  have hfills := hplaced.fills_ne_nil hhop
  have hsource : plan.network.isNative hop.hop.source = true := by
    rw [hplaced.starts hhop]
    exact hnative
  -- the first hop of the first route is entered raw, and has been built
  have hheld : plan.initialForm = .raw := by
    rw [initialForm, hroot]
    rfl
  obtain ⟨part, _, hpart⟩ := exists_rel_of_forall₂ h.routes hroute
  obtain ⟨code, adapters, _, hbuilt⟩ := exists_hopBuilt_of_hops hpart.hops hhop
  have htracked := hbuilt.tracked hfills hsource
  have hfound : plan.adaptersAt hop = adapters := Job.adaptersAt_eq hbuilt.found
  obtain ⟨adapter, rest, hadapters⟩ :=
    List.exists_cons_of_ne_nil (hbuilt.adapters_ne_nil hfills)
  have hwrap := htracked.raw hheld htopology
  rw [hfound, hadapters] at hwrap
  obtain ⟨first, later, hfirst, _, hparts⟩ := List.forall₂_cons_left_iff.1 hwrap
  -- so a wrap stands in front of its first exchange
  have hadapter : adapter.wrapsNative = true := by
    refine List.all_eq_true.1 hwraps adapter (List.mem_flatMap.2 ⟨hop, ?_, ?_⟩)
    · refine List.mem_filterMap.2 ⟨route, hmem, ?_⟩
      rw [List.head?_eq_getElem?]
      exact hhop
    · rw [hfound, hadapters]
      exact List.mem_cons_self
  rw [hadapter] at hfirst
  obtain ⟨frame, hframe⟩ := Option.isSome_iff_exists.1 hfirst
  have hfirstMem : first ∈ code.parts := by
    rw [hparts]
    exact List.mem_cons_self
  obtain ⟨deposit, hdeposit, _⟩ := htracked.frames first hfirstMem frame hframe
  exact ⟨deposit, hdeposit⟩

end Plan

namespace Job

variable {job : Job} {more : Option WrapCalls} {program : Program}

/-- The plan with more calldata has all that the plan with less builds code with. -/
theorem carries_supply (hmore : Supplies job.wrapCalls more) :
    job.settled.Carries (job.supply more).settled where
  network := rfl
  topology := rfl
  source := rfl
  destination := rfl
  wrapFrame frame h := by
    obtain ⟨deposit, hdeposit, hframe⟩ := Plan.wrapFrame_eq_ok_iff.1 h
    exact Plan.wrapFrame_eq_ok_iff.2 ⟨deposit, hmore.deposit deposit hdeposit, hframe⟩
  unwrapFrame flag frame h := by
    obtain ⟨withdraw, hwithdraw, hframe⟩ := Plan.unwrapFrame_eq_ok_iff.1 h
    exact Plan.unwrapFrame_eq_ok_iff.2 ⟨withdraw, hmore.withdraw withdraw hwithdraw, hframe⟩

/-- The decision to wrap the source in front of all routes stays as it was. -/
theorem wrapsRoot_supply (hmore : Supplies job.wrapCalls more) (hcheck : job.check = .ok ())
    (h : job.settled.ProgramBuilt program) : (job.supply more).wrapsRoot = job.wrapsRoot := by
  have hconnected := (Trade.connected_of_check hcheck).1
  cases hdeposit : job.deposit? with
  | some calldata =>
      have hstill : (job.supply more).deposit? = some calldata := hmore.deposit calldata hdeposit
      unfold wrapsRoot
      rw [hdeposit, hstill]
      rfl
  | none =>
      have hbefore : job.wrapsRoot = false := by
        rw [wrapsRoot, hdeposit]
        simp
      rw [hbefore, Bool.eq_false_iff]
      intro hafter
      have hparts : (((job.trade.topology != .single) = true ∧ job.nativeSource = true) ∧
          (job.supply more).deposit?.isSome = true) ∧
          job.firstAdapters.all (·.wrapsNative) = true := by
        rw [← Bool.and_eq_true, ← Bool.and_eq_true, ← Bool.and_eq_true]
        exact hafter
      obtain ⟨⟨⟨htopology, hnative⟩, _⟩, hwraps⟩ := hparts
      obtain ⟨calldata, hgiven⟩ :=
        h.exists_deposit hconnected (bne_iff_ne.1 htopology) hnative hbefore hwraps
      exact nomatch hdeposit.symm.trans hgiven

/-- A trade that compiles is compiled to the same code if more calldata for the wrapped
token is given. -/
theorem compile_supply (hmore : Supplies job.wrapCalls more) (h : job.compile = .ok program) :
    (job.supply more).compile = .ok program := by
  obtain ⟨hcheck, plan, hplan, hbuilt⟩ := compile_eq_ok_iff.1 h
  have hcount := (Trade.connected_of_check hcheck).2
  obtain ⟨hwithdraw, rfl⟩ := (Plan.of_eq_ok_iff hcount).1 hplan
  have hwraps := wrapsRoot_supply hmore hcheck hbuilt
  have hcarries := carries_supply hmore
  -- withdraw calldata is still there if it is needed, and all decisions are the same
  have hplanned : Plan.of (job.supply more) = .ok (job.supply more).settled := by
    have hstill : (job.supply more).adapters.length = (job.supply more).trade.fills.length :=
      hcount
    refine (Plan.of_eq_ok_iff hstill).2 ⟨fun hunwraps => ?_, rfl⟩
    obtain ⟨calldata, hgiven⟩ := hwithdraw hunwraps
    exact ⟨calldata, hmore.withdraw calldata hgiven⟩
  have hinitial : (job.supply more).settled.initialForm = job.settled.initialForm := by
    unfold Plan.initialForm settled
    rw [hwraps]
  have hsource : (job.supply more).settled.routeSource = job.settled.routeSource := by
    unfold Plan.routeSource settled
    rw [hwraps]
    rfl
  have hroot : (job.supply more).settled.rootNative = job.settled.rootNative := by
    unfold Plan.rootNative settled
    rw [hwraps]
    rfl
  refine compile_eq_ok_iff.2 ⟨hcheck, _, hplanned, ?_⟩
  constructor
  · refine hbuilt.routes.imp fun route part hpart => ⟨?_, hpart.forward, ?_⟩
    · rw [hinitial]
      exact Plan.hops_carried hcarries rfl
        (List.forall₂_same.2 fun hop _ => PlacedHop.Alike.refl _ hop) hpart.hops
    · rw [hsource]
      exact hpart.share
  · rw [hroot]
    exact hbuilt.branch
  · show onlyIf (job.supply more).wrapsRoot _ = _
    rw [hwraps]
    exact onlyIf_carried hcarries.wrapFrame hbuilt.wrap
  · exact onlyIf_carried (hcarries.unwrapFrame _) hbuilt.unwrap
  · exact hbuilt.forward
  · rw [hroot]
    exact hbuilt.share

/-- So it is the same on the wire, byte by byte. -/
theorem bytecode_supply {data : Bytes} (hmore : Supplies job.wrapCalls more)
    (h : job.bytecode = .ok data) : (job.supply more).bytecode = .ok data := by
  obtain ⟨program, hprogram, hdata⟩ := map_eq_ok_iff.1 h
  exact map_eq_ok_iff.2 ⟨program, compile_supply hmore hprogram, hdata⟩

/-- The sale, with a first exchange that wants raw native asset and no calldata for the
wrapped token at all. -/
def rawSale : Job :=
  { sale with
    adapters := [.small 11 500 false false, .small 12 300 true false, .small 13 301 false true,
      .small 14 500 false false]
    wrapCalls := none }

theorem bytecode_supply_rawSale : ∃ data, rawSale.bytecode = .ok data ∧
    (rawSale.supply (some ⟨some [5, 6, 7, 8], none⟩)).bytecode = .ok data := by
  obtain ⟨data, hdata⟩ : ∃ data, rawSale.bytecode = .ok data :=
    exists_eq_ok_of_isSome (by decide +kernel)
  have hmore : Supplies rawSale.wrapCalls (some ⟨some [5, 6, 7, 8], none⟩) :=
    { deposit := fun _ hnone => nomatch hnone
      withdraw := fun _ hnone => nomatch hnone }
  exact ⟨data, hdata, bytecode_supply hmore hdata⟩

end Job

end SwapCompiler
