import SwapCompiler.Proofs.Blame
import SwapCompiler.Proofs.Native.Output

/-!
# The branch around all routes

Where wrapped output is unwrapped behind parallel routes, the branch around the routes
reads the balance of the wrapped token, and so has to find its word in them.  No
exchange is told to expose that word for the sake of this branch, as the exchanges of a
hop are for the sake of theirs.  It is there all the same if some last exchange
delivers the wrapped token, unless the exchange is a special one on a first hop
(`Job.finishes_of_exposesOutput`), and it may be missing if there is no other
(`Job.compile_pegged`).
-/

namespace SwapCompiler

/-- Some last exchange delivers the wrapped token and is no special one on a first
hop. -/
def Job.ExposesOutput (job : Job) : Prop :=
  ∃ route ∈ job.layout.routes, ∃ hop ∈ route.hops.getLast?, ∃ adapter ∈ job.adaptersAt hop,
    adapter.wrapsNative = true ∧ (hop.first && adapter.isSpecial) = false

namespace Plan

variable {plan : Plan} {route : PlacedRoute} {hop : PlacedHop} {held : NativeForm}
  {adapters : List Adapter}

/-- An exchange that delivers the wrapped token behind a last hop needs the word of that
token, for its own flag or for the branch around its hop. -/
theorem needsToken_of_last (hwrapped : plan.network.isNative plan.network.wrapped = false)
    (htopology : plan.topology ≠ .single) (hlast : hop.last = true)
    (hnative : plan.network.isNative hop.hop.destination = true) {adapter : Adapter}
    (hmem : adapter ∈ adapters) (hwraps : adapter.wrapsNative = true)
    (hspecial : (hop.first && adapter.isSpecial) = false) (fill : Fill) :
    (plan.call (plan.scene route hop held adapters) fill adapter).needsToken = true := by
  have hreceived : plan.receivedToken (plan.scene route hop held adapters) adapter =
      plan.network.wrapped := by
    rw [receivedToken_scene, Network.dealt, hnative, hwraps]
    rfl
  rw [needsToken_call, hreceived, hwrapped, Bool.or_eq_true]
  cases hbranches : plan.branches hop with
  | true =>
      -- the hop's own branch reads the balance of the wrapped token
      right
      have hflag : plan.branchFlag? hop adapters = some (BranchFacts.flag
          { last := hop.last
            nativeDestination := plan.network.isNative hop.hop.destination
            anyWrapping := adapters.any (·.wrapsNative)
            anyRaw := adapters.any (!·.wrapsNative) }) := by
        rw [branchFlag?, if_pos hbranches]
      have hany : adapters.any (·.wrapsNative) = true :=
        List.any_eq_true.2 ⟨adapter, hmem, hwraps⟩
      have hexposes : (plan.scene route hop held adapters).exposesDestination = true := by
        show (plan.branchFlag? hop adapters).any (·.checksToken) = true
        rw [hflag, Option.any_some]
        refine decide_eq_true ?_
        rw [BranchFacts.check_flag_of_last hlast, hnative, hany]
        rfl
      rw [hexposes]
      rfl
  | false =>
      left
      refine decide_eq_true ?_
      rw [callFlag_of_ne_single htopology]
      refine HopFacts.check_flag_of_unwraps ?_ ?_ hnative ?_
      · show (hop.first && (plan.branches hop || adapter.isSpecial)) = false
        rw [hbranches, Bool.false_or]
        exact hspecial
      · show (plan.network.isNative hop.hop.source && adapter.wrapsNative) =
          plan.network.isNative hop.hop.source
        rw [hwraps, Bool.and_true]
      · show (plan.network.isNative hop.hop.destination && adapter.wrapsNative) = true
        rw [hnative, hwraps]
        rfl

/-- The word of the wrapped token stands in the routes. -/
theorem wrapped_infix_routes (hwrapped : plan.network.isNative plan.network.wrapped = false)
    (htopology : plan.topology ≠ .single) (hnative : plan.nativeDestination = true)
    (hconnected : plan.trade.Connected) (hexposes : plan.ExposesOutput)
    {parts : List RoutePart}
    (hroutes : List.Forall₂ plan.RouteBuilt plan.layout.routes parts) :
    plan.network.wrapped.word <:+: codeBytes (routesCode parts) := by
  obtain ⟨route, hroute, hop, hhop, adapter, hadapter, hwraps, hspecial⟩ := hexposes
  have hplaced := hconnected.placed hroute
  obtain ⟨r, hr⟩ := List.mem_iff_getElem?.1 hroute
  obtain ⟨part, hpart, hbuilt⟩ := exists_rel_of_forall₂ hroutes hr
  -- the last hop stands at the last position, and so does its code
  have hposition : route.hops[route.hops.length - 1]? = some hop := by
    rw [← List.getLast?_eq_getElem?]
    exact hhop
  obtain ⟨code, adapters, hcode, hhopBuilt⟩ := exists_hopBuilt_of_hops hbuilt.hops hposition
  have hlast : hop.last = true := by
    have hlength : 0 < route.hops.length := List.length_pos_iff.2 hplaced.hops_ne_nil
    rw [hplaced.last hposition]
    exact decide_eq_true (by omega)
  have hbuys : plan.network.isNative hop.hop.destination = true := by
    rw [hplaced.ends hhop]
    exact hnative
  rw [Job.adaptersAt_eq hhopBuilt.found] at hadapter
  obtain ⟨frame, hframe, hstands⟩ :=
    received_infix_parts hhopBuilt.lengths.1.symm hhopBuilt.parts hadapter
      (needsToken_of_last hwrapped htopology hlast hbuys hadapter hwraps hspecial)
  rw [receivedToken_scene, Network.dealt, hbuys, hwraps] at hstands
  refine hstands.trans (frame_infix_codeBytes _ ?_)
  exact mem_codeFrames_routesCode (List.mem_of_getElem? hpart)
    (RouteCode.mem_codeFrames_code (List.mem_of_getElem? hcode)
      (HopCode.mem_codeFrames_code hframe))

/-- Around routes that have compiled, only the branch searches for anything. -/
theorem program_findsPatterns {parts : List RoutePart} (hroutes : plan.routes = .ok parts)
    (hbranch : FindsPatterns (plan.rootBranch (codeBytes (routesCode parts)))) :
    FindsPatterns plan.program := by
  refine (FailsOnly.of_eq_ok hroutes).bind fun found hfound => ?_
  obtain rfl : parts = found := Except.ok.inj (hroutes.symm.trans hfound)
  refine (FailsOnly.onlyIf fun _ => hbranch).bind fun _ _ => ?_
  refine (FailsOnly.onlyIf fun _ => plan.wrapFrame_findsPatterns).bind fun _ _ => ?_
  refine (FailsOnly.onlyIf fun _ => plan.unwrapFrame_findsPatterns _).bind fun _ _ => ?_
  refine (FailsOnly.onlyIf fun _ => Frame.sendNative.checked_findsPatterns).bind fun _ _ => ?_
  -- the share of the whole is taken from nothing in particular
  have hposition : ∀ body, ∃ position, Share.positionOf 100.0 .whole body = .ok position := by
    intro body
    refine ⟨0, ?_⟩
    unfold Share.positionOf
    split <;> rfl
  exact (FailsOnly.onlyIf fun _ => Share.of_findsPatterns (hposition _)).bind fun _ _ => .ok _

end Plan

/-- If the routes of a valid trade compile and some last exchange exposes the wrapped
output, then the branch around the routes finds the wrapped token's word in them, and
the trade does not fail for want of a pattern. -/
theorem Job.finishes_of_exposesOutput {job : Job} {plan : Plan} {parts : List RoutePart}
    (hwrapped : job.network.wrapped ≠ job.network.native) (hcheck : job.check = .ok ())
    (hplan : Plan.of job = .ok plan) (hparallel : plan.topology = .parallel)
    (hroot : plan.rootUnwrap = true) (hroutes : plan.routes = .ok parts)
    (hexposes : job.ExposesOutput) :
    job.network.wrapped.word <:+: codeBytes (routesCode parts) ∧ FindsPatterns job.compile := by
  obtain ⟨rfl, hsettled⟩ := Plan.settled_of_eq_ok hplan
  have hconnected := (Trade.connected_of_check hcheck).1
  have hforeign : plan.network.isNative plan.network.wrapped = false :=
    Network.isNative_eq_false_iff.2 hwrapped
  have htopology : plan.topology ≠ .single := by
    rw [hparallel]
    exact nofun
  have hnative : plan.nativeDestination = true := by
    have hunwraps := hsettled.rootUnwrap.symm
    rw [hroot, Bool.and_eq_true, Bool.and_eq_true] at hunwraps
    exact hunwraps.1.2
  have hword := Plan.wrapped_infix_routes hforeign htopology hnative hconnected hexposes
    (Plan.routes_eq_ok_iff.1 hroutes)
  refine ⟨hword, ?_⟩
  refine (FailsOnly.of_eq_ok hcheck).bind fun _ _ => ?_
  refine (FailsOnly.of_eq_ok hplan).bind fun found hfound => ?_
  obtain rfl : plan = found := Except.ok.inj (hplan.symm.trans hfound)
  refine Plan.program_findsPatterns hroutes ?_
  obtain ⟨branch, hbranch⟩ : ∃ branch, Branch.of plan.network.executor plan.rootBranchFlag
      (some plan.network.wrapped) (codeBytes (routesCode parts)) = .ok branch :=
    Branch.exists_of fun _ => hword.trans (Branch.children_infix_body _)
  exact (FailsOnly.of_eq_ok hbranch).bind fun _ _ =>
    (Frame.checked_findsPatterns _).bind fun _ _ => .ok _

theorem Job.finishes_of_exposesOutput_purchase : ∃ plan parts, Plan.of purchase = .ok plan ∧
    plan.rootUnwrap = true ∧ plan.routes = .ok parts ∧
    purchase.network.wrapped.word <:+: codeBytes (routesCode parts) ∧
    FindsPatterns purchase.compile := by
  let plan : Plan :=
    { toJob := purchase, rootWrap := false, rootUnwrap := true, forwardNative := false }
  have hplan : Plan.of purchase = .ok plan := rfl
  obtain ⟨parts, hparts⟩ : ∃ parts, plan.routes = .ok parts :=
    exists_eq_ok_of_isSome (by decide +kernel)
  have hexposes : purchase.ExposesOutput :=
    ⟨_, List.mem_cons_self, _, rfl, _, List.mem_cons_self, rfl, rfl⟩
  obtain ⟨hword, hfinds⟩ := finishes_of_exposesOutput (by decide) (by decide +kernel) hplan rfl rfl
    hparts hexposes
  exact ⟨plan, parts, hplan, rfl, hparts, hword, hfinds⟩

/-- The purchase, with a special exchange in place of the one that delivers the wrapped
token. -/
def Job.pegged : Job :=
  { purchase with
    adapters := [{ Adapter.small 11 500 true true with special := some .makerPsm },
      .small 12 501 false false] }

/-- The routes of a valid trade may compile, and the branch around them then miss the
word of the wrapped token. -/
theorem Job.compile_pegged : pegged.network.wrapped ≠ pegged.network.native ∧
    pegged.check = .ok () ∧
    (∃ plan parts, Plan.of pegged = .ok plan ∧ plan.topology = .parallel ∧
      plan.rootUnwrap = true ∧ plan.routes = .ok parts) ∧
    pegged.compile = .error
      (.patternAbsent "branch destination token" pegged.network.wrapped.word 608 none) := by
  let plan : Plan :=
    { toJob := pegged, rootWrap := false, rootUnwrap := true, forwardNative := false }
  obtain ⟨parts, hparts⟩ : ∃ parts, plan.routes = .ok parts :=
    exists_eq_ok_of_isSome (by decide +kernel)
  refine ⟨by decide, by decide +kernel, ⟨plan, parts, rfl, rfl, rfl, hparts⟩, ?_⟩
  decide +kernel

end SwapCompiler
