import SwapCompiler.Proofs.Native.Output
import SwapCompiler.Proofs.Native.Tracking
import SwapCompiler.Proofs.Twin.Program

/-!
# Trades of tokens only

Where no hop sells or buys the native asset, nothing that serves it matters: which exchanges
want the wrapped token, and the calldata for wrapping and unwrapping.

* `Trade.TokensOnly` says so of a trade, and `Job.rewrapped` replaces all such data.
* `Plan.HopBuilt.role_of_tokens` and `Plan.ProgramBuilt.role_of_tokens` list what frames are
  left.
* `Job.bytecode_rewrapped` is the result.
-/

namespace SwapCompiler

/-- No hop sells or buys the native asset. -/
def Trade.TokensOnly (trade : Trade) (network : Network) : Prop :=
  ∀ route ∈ trade.routes, ∀ hop ∈ route.hops,
    hop.source ≠ network.native ∧ hop.destination ≠ network.native

instance (trade : Trade) (network : Network) : Decidable (trade.TokensOnly network) :=
  inferInstanceAs (Decidable (∀ route ∈ trade.routes, ∀ hop ∈ route.hops,
    hop.source ≠ network.native ∧ hop.destination ≠ network.native))

/-- Runs whose faults are not renamed end with the same result. -/
theorem EndsAlike.eq {α : Type} {run other : Except Fault α} (h : EndsAlike id run other) :
    other = run := by
  rcases iff_cases.1 h with ⟨value, rfl, rfl⟩ | ⟨fault, cause, rfl, rfl, hsame⟩
  · rfl
  · rw [Fault.renamed_id, Fault.renamed_id] at hsame
    rw [hsame]

theorem Trade.Twin.refl (rename : String → String) (trade : Trade) : trade.Twin rename trade :=
  ⟨rfl, rfl, .rfl, List.forall₂_same.2 fun _ _ =>
    ⟨rfl, List.forall₂_same.2 fun _ _ =>
      ⟨rfl, rfl, List.forall₂_same.2 fun _ _ => ⟨rfl, rfl, rfl⟩⟩⟩⟩

theorem Trade.TokensOnly.dealsNatively_eq_false {trade : Trade} {network : Network}
    (h : trade.TokensOnly network) {route : PlacedRoute}
    (hroute : route ∈ (Layout.of trade).routes) {hop : PlacedHop} (hhop : hop ∈ route.hops) :
    hop.hop.dealsNatively network = false := by
  obtain ⟨hmem, hhopMem⟩ := Layout.hop_mem_of_mem hroute hhop
  obtain ⟨hsource, hdestination⟩ := h _ hmem _ hhopMem
  simp [Hop.dealsNatively, Network.isNative_eq_false_iff, hsource, hdestination]

/-- Neither end of such a trade is the native asset. -/
theorem Trade.TokensOnly.ends {trade : Trade} {network : Network} (h : trade.TokensOnly network)
    (hconnected : trade.Connected) :
    network.isNative trade.source = false ∧ network.isNative trade.destination = false := by
  obtain ⟨route, hroute⟩ := List.exists_mem_of_ne_nil _ hconnected.routes_ne_nil
  have hhops := hconnected.hops_ne_nil route hroute
  have hfirst := (h route hroute _ (List.head_mem hhops)).1
  have hlast := (h route hroute _ (List.getLast_mem hhops)).2
  rw [hconnected.starts route hroute _ (List.head?_eq_some_head hhops)] at hfirst
  rw [hconnected.ends route hroute _ (List.getLast?_eq_some_getLast hhops)] at hlast
  exact ⟨Network.isNative_eq_false_iff.2 hfirst, Network.isNative_eq_false_iff.2 hlast⟩

namespace Job

/-- The job with other wishes for the wrapped token, exchange by exchange, and other
calldata for it. -/
def rewrapped (job : Job) (wraps : Nat → Bool) (calls : Option WrapCalls) : Job :=
  { job with
    adapters := job.adapters.mapIdx fun k adapter => { adapter with wrapsNative := wraps k }
    wrapCalls := calls }

/-- In a trade of tokens only, the data that were replaced are not looked at. -/
theorem rewrapped_twin {job : Job} (htokens : job.trade.TokensOnly job.network)
    (wraps : Nat → Bool) (calls : Option WrapCalls) : job.Twin id (job.rewrapped wraps calls) where
  network := rfl
  trade := .refl id job.trade
  adapterCount := List.length_mapIdx
  adapters := by
    intro site hsite adapter counterpart hadapter hcounterpart
    obtain ⟨route, hroute, hhop, _⟩ := Layout.mem_sites_iff.1 hsite
    rw [htokens.dealsNatively_eq_false hroute hhop]
    simp only [rewrapped, List.getElem?_mapIdx, hadapter, Option.map_some] at hcounterpart
    obtain rfl := Option.some.inj hcounterpart
    exact ⟨rfl, rfl, rfl, rfl, rfl, rfl, rfl, fun hnative => nomatch hnative⟩
  amounts := by
    intro site hsite partner hpartner hindex _
    rw [Layout.eq_of_index_eq hsite hpartner hindex]
  calls := by
    rintro ⟨route, hroute, hop, hhop, hdeals⟩
    obtain ⟨hsource, hdestination⟩ := htokens route hroute hop hhop
    simp [Hop.dealsNatively, Network.isNative, hsource, hdestination] at hdeals

end Job

/-! ## The frames of a trade of tokens only -/

/-- The frames that serve a fill as it is given: the branch around its hop, its allowance, its
call and its transfer. -/
def Role.plain : List Role :=
  [.hopBranch, .approve, .call, .transfer]

theorem Leg.role_of_plain {leg : Leg} (hwrap : leg.wrap = none) (hunwrap : leg.unwrap = none)
    {entry : Role × Frame} (h : entry ∈ leg.reading) : entry.1 ∈ Role.plain := by
  simp only [Leg.reading, hwrap, hunwrap, List.mem_append, mem_asRole, List.mem_singleton,
    Option.mem_def, reduceCtorEq, and_false, false_or, or_false] at h
  rcases h with (⟨hrole, _⟩ | rfl) | ⟨hrole, _⟩ <;> simp [Role.plain, *]

namespace Plan

variable {plan : Plan}

/-- A hop between two tokens neither wraps nor unwraps. -/
theorem HopBuilt.role_of_tokens {route : PlacedRoute} {hop : PlacedHop} {held : NativeForm}
    {adapters : List Adapter} {code : HopCode} (h : plan.HopBuilt route hop held adapters code)
    (htokens : hop.hop.dealsNatively plan.network = false) {entry : Role × Frame}
    (hentry : entry ∈ code.reading) : entry.1 ∈ Role.plain := by
  obtain ⟨hsource, hdestination⟩ := Bool.or_eq_false_iff.1 htokens
  have hbetween : code.unwrap = none :=
    eq_none_of_onlyIf h.unwrap (by simp [hdestination])
  have hwraps : ∀ adapter ∈ adapters, (plan.scene route hop held adapters).wraps adapter = false :=
    fun _ _ => by simp [HopScene.wraps, scene, hsource]
  have hwrap := h.wrap_eq_none (wrapPlaces_of_forall_not _ _ hwraps false)
  simp only [HopCode.reading, hbetween, List.mem_append, mem_asRole, List.mem_flatMap,
    Option.mem_def, reduceCtorEq, and_false, or_false] at hentry
  rcases hentry with ⟨hrole, _⟩ | ⟨part, hpart, hleg⟩
  · simp [hrole, Role.plain]
  · obtain ⟨k, hk⟩ := List.mem_iff_getElem?.1 hpart
    obtain ⟨_, _, _, _, _, _, _, hbuilt⟩ := h.part_built hk
    have hunwrap : part.leg.unwrap = none :=
      eq_none_of_onlyIf hbuilt.leg.unwrap (by simp [HopScene.unwraps, scene, hdestination])
    exact Leg.role_of_plain (hwrap part hpart) hunwrap hleg

/-- Without the native asset at either end, nothing is settled for the trade as a whole. -/
theorem Settled.eq_false_of_tokens (h : plan.Settled) (hsource : plan.nativeSource = false)
    (hdestination : plan.nativeDestination = false) :
    plan.rootWrap = false ∧ plan.rootUnwrap = false ∧ plan.forwardNative = false := by
  rw [h.forwardNative, h.rootWrap, h.rootUnwrap, hsource, hdestination]
  simp

theorem ProgramBuilt.role_of_tokens {program : Program} (h : plan.ProgramBuilt program)
    (hsettled : plan.Settled) (hconnected : plan.trade.Connected)
    (htokens : plan.trade.TokensOnly plan.network) {entry : Role × Frame}
    (hentry : entry ∈ program.reading) : entry.1 ∈ Role.plain := by
  obtain ⟨hsource, hdestination⟩ := htokens.ends hconnected
  obtain ⟨hwrap, hunwrap, hforward⟩ := hsettled.eq_false_of_tokens hsource hdestination
  have hopening : program.opening = [] := by
    rw [Program.opening, eq_none_of_onlyIf h.wrap hwrap,
      eq_none_of_onlyIf h.branch (by simp [rootNative, hwrap, hunwrap])]
    rfl
  have hreading : program.reading = routesReading program.routes := by
    rw [Program.reading, hopening, eq_none_of_onlyIf h.unwrap hunwrap,
      eq_none_of_onlyIf h.forward hunwrap]
    simp [asRole]
  rw [hreading] at hentry
  obtain ⟨part, hpart, hentry⟩ := List.mem_flatMap.1 hentry
  rw [RouteCode.reading, h.route_forward_eq_none hforward part hpart] at hentry
  simp only [asRole, Option.toList_none, List.map_nil, List.append_nil] at hentry
  obtain ⟨code, hcode, hentry⟩ := List.mem_flatMap.1 hentry
  obtain ⟨route, hroute, hbuilt⟩ := exists_mem_of_forall₂ h.routes hpart
  obtain ⟨hop, hhop, held, adapters, hhopBuilt⟩ :=
    exists_mem_of_forall₂ (forall₂_hopBuilt hbuilt.hops) hcode
  exact hhopBuilt.role_of_tokens (htokens.dealsNatively_eq_false hroute hhop) hentry

end Plan

namespace Job

/-- What serves the native asset is inert in a trade of tokens only.  Whatever the exchanges
are said to want and whatever calldata is given for the wrapped token, the result is exactly
the same, bytes or fault; and of the frames that are compiled none wraps, none unwraps and
none sends the native balance on. -/
theorem bytecode_rewrapped {job : Job} (htokens : job.trade.TokensOnly job.network) :
    (∀ wraps calls, (job.rewrapped wraps calls).bytecode = job.bytecode) ∧
      ∀ data, job.bytecode = .ok data → ∃ program, job.compile = .ok program ∧
        data = program.bytes ∧ codeFrames program.code = program.reading.map (·.2) ∧
          ∀ entry ∈ program.reading, entry.1 ∈ [Role.hopBranch, .approve, .call, .transfer] := by
  constructor
  · intro wraps calls
    exact (rewrapped_twin htokens wraps calls).bytecode_endsAlike.eq
  · intro data hdata
    obtain ⟨program, hprogram, rfl⟩ := map_eq_ok_iff.1 hdata
    obtain ⟨hcheck, plan, hplan, hbuilt⟩ := compile_eq_ok_iff.1 hprogram
    obtain ⟨hjob, hsettled⟩ := Plan.settled_of_eq_ok hplan
    have hconnected : plan.trade.Connected := by
      rw [hjob]
      exact (Trade.connected_of_check hcheck).1
    have htokens : plan.trade.TokensOnly plan.network := by
      rw [hjob]
      exact htokens
    exact ⟨program, hprogram, rfl, program.codeFrames_code,
      fun entry hentry => hbuilt.role_of_tokens hsettled hconnected htokens hentry⟩

/-- One token is swapped for another through a third, the second hop split between two
exchanges, one of which asks for the wrapped token. -/
def tokenSwap : Job :=
  { trade :=
      { source := .ofNat 5
        destination := .ofNat 6
        sourceAmount := 1000
        destinationAmount := 5
        routes :=
          [⟨100.0, [⟨.ofNat 5, .ofNat 7, [⟨"first", 100.0, 500, 1⟩]⟩,
            ⟨.ofNat 7, .ofNat 6, [⟨"second", 50.0, 300, 1⟩, ⟨"third", 50.0, 301, 2⟩]⟩]⟩] }
    adapters := [.small 11 500 false false, .small 12 300 true false, .small 13 301 false true]
    wrapCalls := none
    network := .small }

theorem bytecode_rewrapped_tokenSwap : ∃ data, tokenSwap.bytecode = .ok data ∧
    (tokenSwap.rewrapped (fun k => k = 0) (some ⟨some [5, 6, 7, 8], none⟩)).bytecode = .ok data ∧
      ∃ program, tokenSwap.compile = .ok program ∧
        ∀ entry ∈ program.reading, entry.1 ∈ [Role.hopBranch, .approve, .call, .transfer] := by
  obtain ⟨data, hdata⟩ : ∃ data, tokenSwap.bytecode = .ok data :=
    exists_eq_ok_of_isSome (by decide +kernel)
  have htokens : tokenSwap.trade.TokensOnly tokenSwap.network := by decide
  obtain ⟨hinert, hframes⟩ := bytecode_rewrapped htokens
  obtain ⟨program, hprogram, _, _, hroles⟩ := hframes data hdata
  exact ⟨data, hdata, by rw [hinert, hdata], program, hprogram, hroles⟩

end Job

end SwapCompiler
