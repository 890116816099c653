import SwapCompiler.Proofs.Built.Contents
import SwapCompiler.Proofs.FlagTables
import SwapCompiler.Proofs.Native.Tracking

/-!
# Every hop measures what the next one spends

The last frame of a hop that is not the last of its route reads the balance of the
asset that the next hop sells, in the form in which that hop finds it.

* `Job.ReadsBalanceOf` says which balance a frame reads.
* A hop of a single exchange ends with its call; a hop of several is fanned out by
  a branch, behind which an unwrap may stand.  The two cases are
  `Plan.HopBuilt.handOff_call` and `Plan.HopBuilt.handOff_branch`.
* `Job.hops_handOff` puts them together for a compiled trade.
-/

namespace SwapCompiler

/-- The frame that an instruction is on its own level. -/
def Instruction.frame? : Instruction → Option Frame
  | .frame found => some found
  | .branch found children => some (found.frame (codeBytes children))
  | .share _ _ => none

/-- The frame reads the balance of a token, or of the native asset in the form in
which it is held. -/
def Job.ReadsBalanceOf (job : Job) (token : Address) (held : NativeForm) (frame : Frame) :
    Prop :=
  if job.network.isNative token then
    match held with
    | .raw => frame.flag.check = .native
    | .wrapped => frame.flag.check = .token ∧
        Bytes.OccursAt job.network.wrapped.word frame.tokenOffset frame.body
  else frame.flag.check = .token ∧ Bytes.OccursAt token.word frame.tokenOffset frame.body

namespace Plan

variable {plan : Plan} {route : PlacedRoute} {hop : PlacedHop} {held : NativeForm}
  {adapters : List Adapter} {code : HopCode}

/-- What the exchanges of a hop hand on: native asset, wrapped if all of them
deliver the wrapped token. -/
def handsOn (adapters : List Adapter) : NativeForm :=
  if adapters.all (·.wrapsNative) then .wrapped else .raw

/-- A frame that reads the right balance for what a hop bought. -/
theorem readsBalanceOf_iff {frame : Frame} {token : Address} :
    plan.ReadsBalanceOf token (handsOn adapters) frame ↔
      if plan.network.isNative token && !adapters.all (·.wrapsNative) then
        frame.flag.check = .native
      else frame.flag.check = .token ∧
        Bytes.OccursAt (if plan.network.isNative token then plan.network.wrapped else token).word
          frame.tokenOffset frame.body := by
  unfold Job.ReadsBalanceOf handsOn
  cases plan.network.isNative token <;> cases adapters.all (·.wrapsNative) <;> simp

/-- A call that no branch surrounds reads the balance of what its hop buys. -/
theorem LegBuilt.readsBalance {here : Bool} {fill : Fill} {adapter : Adapter} {leg : Leg}
    (h : plan.LegBuilt (plan.scene route hop held [adapter]) here fill adapter leg)
    (htopology : plan.topology ≠ .single) (hlast : hop.last = false)
    (hbranches : plan.branches hop = false)
    (hspecial : hop.first = true → adapter.isSpecial = false)
    (hnative : (plan.network.isNative hop.hop.source &&
      plan.network.isNative hop.hop.destination) = false) :
    plan.ReadsBalanceOf hop.hop.destination (handsOn [adapter]) leg.call := by
  have hflag : leg.call.flag = plan.callFlag (plan.scene route hop held [adapter]) adapter :=
    Call.flag_of_frame h.call
  have hfirst : (hop.first && (plan.branches hop || adapter.isSpecial)) = false := by
    cases hfirst : hop.first with
    | false => rfl
    | true => rw [hbranches, hspecial hfirst]; rfl
  have hcheck : leg.call.flag.check =
      if plan.network.isNative hop.hop.destination &&
        !(plan.network.isNative hop.hop.destination && adapter.wrapsNative) then .native
      else .token := by
    rw [hflag, callFlag_of_ne_single htopology]
    exact HopFacts.check_flag_of_not_last hlast hfirst hnative
  have hoccurs : leg.call.flag.check = .token → Bytes.OccursAt
      (if plan.network.isNative hop.hop.destination && adapter.wrapsNative then
        plan.network.wrapped else hop.hop.destination).word
      leg.call.tokenOffset leg.call.body := by
    intro htoken
    refine Call.occursAt_of_checksToken h.call (decide_eq_true ?_)
    rw [← htoken, hflag]
    rfl
  rw [readsBalanceOf_iff, List.all_cons, List.all_nil, Bool.and_true]
  cases hdestination : plan.network.isNative hop.hop.destination with
  | false =>
      rw [hdestination] at hcheck hoccurs
      exact ⟨hcheck, hoccurs hcheck⟩
  | true =>
      cases hwraps : adapter.wrapsNative with
      | false =>
          rw [hdestination, hwraps] at hcheck
          exact hcheck
      | true =>
          rw [hdestination, hwraps] at hcheck hoccurs
          exact ⟨hcheck, hoccurs hcheck⟩

/-- A hop of a single exchange ends with its call. -/
theorem HopBuilt.handOff_call (h : plan.HopBuilt route hop held adapters code)
    (htopology : plan.topology ≠ .single) (hlast : hop.last = false)
    (hone : hop.fills.length = 1)
    (hspecial : hop.first = true → ∀ adapter, adapters = [adapter] → adapter.isSpecial = false)
    (hnative : (plan.network.isNative hop.hop.source &&
      plan.network.isNative hop.hop.destination) = false) :
    ∃ front instruction frame, code.code = front ++ [instruction] ∧
      instruction.frame? = some frame ∧
      plan.ReadsBalanceOf hop.hop.destination (handsOn adapters) frame := by
  obtain ⟨hadapters, hparts⟩ := h.lengths
  obtain ⟨adapter, rfl⟩ := List.length_eq_one_iff.1 (hadapters.trans hone)
  obtain ⟨part, hpart⟩ := List.length_eq_one_iff.1 (hparts.trans hone)
  have hbranches : plan.branches hop = false := by
    rw [branches, hone]
    rfl
  obtain ⟨_, found, _, _, hfound, _, _, hbuilt⟩ := h.part_built (k := 0) (by rw [hpart]; rfl)
  obtain rfl : adapter = found := Option.some.inj hfound
  have hshare : part.share = none := by
    refine eq_none_of_onlyIf hbuilt.share ?_
    rw [sharesFills, Bool.and_eq_false_iff]
    exact .inr (by simp [scene, hone])
  have hbranch : code.branch = none := by
    refine Option.not_isSome_iff_eq_none.1 ?_
    rw [h.branch_built.1, hbranches]
    exact Bool.false_ne_true
  have hunwrap : code.unwrap = none := by
    refine eq_none_of_onlyIf h.unwrap ?_
    cases hwraps : adapter.wrapsNative <;> simp [hwraps]
  have hlegUnwrap : part.leg.unwrap = none :=
    eq_none_of_onlyIf hbuilt.leg.unwrap (by simp [htopology])
  have hlegTransfer : part.leg.transfer = none :=
    eq_none_of_onlyIf hbuilt.leg.transfer (by simp [scene, hlast])
  -- nothing stands behind the call: no share, no branch, no unwrap, no transfer
  refine ⟨(part.leg.wrap.toList ++ part.leg.approve.toList).map .frame, .frame part.leg.call,
    part.leg.call, ?_, rfl, hbuilt.leg.readsBalance htopology hlast hbranches
      (fun hfirst => hspecial hfirst adapter rfl) hnative⟩
  simp [HopCode.code, HopCode.children, hpart, Part.code, shared, branched, hshare, hbranch,
    hunwrap, Leg.code, Leg.frames, hlegUnwrap, hlegTransfer]

/-- The branch that fans a hop out reads the balance of what the hop buys. -/
theorem HopBuilt.branch_readsBalance (h : plan.HopBuilt route hop held adapters code)
    (hlast : hop.last = false) {branch : Branch} (hbranch : code.branch = some branch) :
    plan.ReadsBalanceOf hop.hop.destination (handsOn adapters)
      (branch.frame (codeBytes code.children)) := by
  obtain ⟨hpresent, hbuilt⟩ := h.branch_built
  have hbranches : plan.branches hop = true := by
    rw [← hpresent, hbranch]
    rfl
  obtain ⟨flag, hflag, hof⟩ := hbuilt branch hbranch
  obtain ⟨hof, _⟩ := hopBranch_eq_ok_iff.1 hof
  obtain ⟨_, hbranchFlag, _⟩ := Branch.of_eq_ok_iff.1 hof
  rw [branchFlag?, if_pos hbranches] at hflag
  have hcheck := congrArg Flag.check (Option.some.inj hflag).symm
  rw [BranchFacts.check_flag_of_not_last hlast, ← List.not_all_eq_any_not] at hcheck
  rw [readsBalanceOf_iff]
  have hframeFlag : (branch.frame (codeBytes code.children)).flag = flag := hbranchFlag
  rw [hframeFlag, hcheck]
  split
  · rfl
  · next htoken =>
      refine ⟨rfl, Branch.occursAt_of_checksToken hof (decide_eq_true ?_)⟩
      rw [hcheck, if_neg htoken]

/-- A hop that a branch fans out ends with the branch, or with the unwrap behind
it. -/
theorem HopBuilt.handOff_branch (h : plan.HopBuilt route hop held adapters code)
    (hbranches : plan.branches hop = true) (hlast : hop.last = false) :
    ∃ front instruction frame, code.code = front ++ [instruction] ∧
      instruction.frame? = some frame ∧
      plan.ReadsBalanceOf hop.hop.destination (handsOn adapters) frame := by
  have hpresent := h.branch_built.1
  rw [hbranches] at hpresent
  obtain ⟨branch, hbranch⟩ := Option.isSome_iff_exists.1 hpresent
  cases hunwrap : code.unwrap with
  | none =>
      refine ⟨[], .branch branch code.children, branch.frame (codeBytes code.children), ?_, rfl,
        h.branch_readsBalance hlast hbranch⟩
      rw [HopCode.code, hunwrap, hbranch]
      rfl
  | some frame =>
      refine ⟨branched code.branch code.children, .frame frame, frame, ?_, rfl, ?_⟩
      · rw [HopCode.code, hunwrap]
        rfl
      -- the unwrap stands there because some exchange has left raw asset
      have hneeded := isSome_of_onlyIf h.unwrap
      rw [hunwrap, ← List.not_all_eq_any_not] at hneeded
      have hraw : (plan.network.isNative hop.hop.destination &&
          !adapters.all (·.wrapsNative)) = true := by
        have hall := hneeded.symm
        simp only [Option.isSome_some, Bool.and_eq_true] at hall ⊢
        exact ⟨hall.1.1.1, hall.2⟩
      have hunwraps := (onlyIf_eq_ok_iff.1 h.unwrap).2 frame hunwrap
      obtain ⟨_, _, hbuilt, _⟩ := unwrapFrame_eq_ok_iff.1 hunwraps
      obtain ⟨_, hframe⟩ := Frame.unwrap_eq_ok_iff.1 hbuilt
      rw [readsBalanceOf_iff, if_pos hraw, hframe]
      rfl

end Plan

/-- The last frame that a hop puts on the level of its route reads the balance of
what the next hop sells, in the form in which that hop finds it.  Not covered are a
first hop of one special exchange, a split hop that trades the pair of the whole
trade, and a hop that both sells and buys native asset. -/
theorem Job.hops_handOff {job : Job} {program : Program} (h : job.compile = .ok program)
    {r i : Nat} {route : PlacedRoute} {part : RoutePart} {hop next : PlacedHop} {code : HopCode}
    (hroute : job.layout.routes[r]? = some route) (hpart : program.routes[r]? = some part)
    (hhop : route.hops[i]? = some hop) (hnext : route.hops[i + 1]? = some next)
    (hcode : part.route.hops[i]? = some code)
    (hspecial : i = 0 → ∀ adapter, job.adaptersAt hop = [adapter] → adapter.isSpecial = false)
    (hpair : 1 < hop.fills.length →
      ¬ (hop.hop.source = job.trade.source ∧ hop.hop.destination = job.trade.destination))
    (hnative : ¬ (job.network.isNative hop.hop.source = true ∧
      job.network.isNative hop.hop.destination = true)) :
    ∃ front instruction frame, code.code = front ++ [instruction] ∧
      instruction.frame? = some frame ∧
      job.ReadsBalanceOf next.hop.source
        (job.heldBefore program.wrap.isSome route.hops (i + 1)) frame := by
  obtain ⟨hcheck, plan, hplan, hbuilt⟩ := Job.compile_eq_ok_iff.1 h
  obtain ⟨rfl, _⟩ := Plan.settled_of_eq_ok hplan
  have hmem := List.mem_of_getElem? hroute
  have hconnected := (Trade.connected_of_check hcheck).1.placed hmem
  obtain ⟨adapters, hcodeBuilt⟩ :=
    Plan.hopBuilt_of_hops (rel_of_forall₂ hbuilt.routes hroute hpart).hops hhop hcode
  have hfound : plan.adaptersAt hop = adapters := Job.adaptersAt_eq hcodeBuilt.found
  have hheld : plan.heldBefore program.wrap.isSome route.hops (i + 1) =
      Plan.handsOn adapters := by
    simp [heldBefore, Plan.handsOn, hhop, hfound]
  have hlength : i + 1 < route.hops.length := (List.getElem?_eq_some_iff.1 hnext).1
  have hlast : hop.last = false := by
    rw [hconnected.last hhop]
    exact decide_eq_false (by omega)
  have htopology : plan.topology ≠ .single := by
    intro hsingle
    have hone := Layout.length_hops_of_single hsingle hmem
    omega
  rw [hheld, ← hconnected.link hhop hnext]
  -- a split hop is fanned out, since it is not the whole trade's pair
  by_cases hsplit : 1 < hop.fills.length
  · refine hcodeBuilt.handOff_branch ?_ hlast
    simpa [Plan.branches, hsplit, htopology] using not_and_or.1 (hpair hsplit)
  · have hone : hop.fills.length = 1 := by
      have hfills := List.length_pos_iff.2 (hconnected.fills_ne_nil hhop)
      omega
    refine hcodeBuilt.handOff_call htopology hlast hone (fun hfirst => ?_) ?_
    · rw [hconnected.first hhop, decide_eq_true_eq] at hfirst
      rw [← hfound]
      exact hspecial hfirst
    · rw [Bool.and_eq_false_iff]
      simpa [Bool.not_eq_true] using not_and_or.1 hnative

theorem Job.hops_handOff_relay : ∃ program part code frame, relay.compile = .ok program ∧
    program.routes[0]? = some part ∧ part.route.hops[0]? = some code ∧
    (∃ front instruction, code.code = front ++ [instruction] ∧
      instruction.frame? = some frame) ∧ frame.flag.check = .native := by
  have hsome : (relay.compile.toOption.bind fun program =>
      program.routes[0]?.bind fun part => part.route.hops[0]?).isSome := by
    decide +kernel
  obtain ⟨code, hcode⟩ := Option.isSome_iff_exists.1 hsome
  obtain ⟨program, hprogram, hcode⟩ := Option.bind_eq_some_iff.1 hcode
  obtain ⟨part, hpart, hcode⟩ := Option.bind_eq_some_iff.1 hcode
  have hcompile : relay.compile = .ok program := eq_ok_of_toOption hprogram
  have hhandOff := hops_handOff hcompile rfl hpart rfl rfl hcode
    (by
      intro _ adapter hone
      have hlength : 2 = 1 := congrArg List.length hone
      omega)
    (by decide) (by decide)
  obtain ⟨front, instruction, frame, hlast, hframe, hreads⟩ := hhandOff
  exact ⟨program, part, code, frame, hcompile, hpart, hcode, ⟨front, instruction, hlast, hframe⟩,
    hreads⟩

end SwapCompiler
