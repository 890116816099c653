import SwapCompiler.Proofs.PatchSafety
import SwapCompiler.Proofs.Settled
import SwapCompiler.Proofs.Shares
import SwapCompiler.Proofs.Walk

/-!
# Why a compilation stops

`Plan.Stops` lists the causes that can stop the compilation of a planned trade, each with
what it takes: a missing adapter, missing or short calldata for the wrapped token, a frame
that does not fit its format, an amount that does not fit in a word, or one of the faults
that patterns and combinations have.  `Plan.program_stops` says that there are no others,
and `Job.bytecode_failsOnly` adds what may stop a job before it is planned.

The first half of the module goes through the steps that build frames, branches and shares
and says, for each, what makes it fail.
-/

namespace SwapCompiler

/-! ## Frames, branches and shares -/

/-- The calls of token contracts that the compiler writes itself always fit. -/
theorem Frame.ofAmountCall_fits {selector : Bytes} {token party : Address} {amount : Nat}
    {frame : Frame} (hselector : selector.length = 4)
    (h : ofAmountCall selector token party amount = .ok frame) : frame.Fits := by
  obtain ⟨_, _, htoken, _, hoccurs⟩ := spec_ofAmountCall h
  have hinside := hoccurs.add_length_le (Bytes.word_ne_nil amount)
  have hbody : frame.body.length ≤ 68 := by
    obtain ⟨_, _, _, rfl⟩ := ofAmountCall_eq_ok_iff.1 h
    show (callData selector (party.word ++ Bytes.word amount)).length ≤ 68
    unfold callData
    split <;> simp [hselector, party.length_word]
  have hcapacity : 68 + padding < Bytes.capacity 4 ∧ 68 < Bytes.capacity 2 := by decide
  exact ⟨by omega, by omega, by omega⟩

theorem Frame.ofAmountCall_failsOnly {selector : Bytes} (hselector : selector.length = 4)
    (token party : Address) (amount : Nat) :
    FailsOnly (fun fault => fault = .argumentTooWide amount ∧ Bytes.capacity 32 ≤ amount)
      (ofAmountCall selector token party amount >>= Frame.checked) := by
  refine FailsOnly.bind ?_ fun frame hframe =>
    .of_eq_ok (Frame.checked_eq_ok_iff.2 ⟨ofAmountCall_fits hselector hframe, rfl⟩)
  refine (argumentWord_failsOnly amount).bind fun word hword => ?_
  obtain ⟨frame, hframe⟩ : ∃ frame, ofAmountCall selector token party amount = .ok frame :=
    Frame.exists_ofAmountCall (argumentWord_eq_ok_iff.1 hword).1
  rw [ofAmountCall, hword] at hframe
  exact .of_eq_ok hframe

theorem Branch.of_failsOnly (executor token : Address) (flag : Flag) (children : Bytes) :
    FailsOnly (fun fault => fault.kind = .pattern)
      (Branch.of executor flag (some token) children) := by
  unfold Branch.of
  split
  · exact (locate_failsOnly _ _ _).bind fun _ _ => .ok _
  · exact .ok _

namespace Share

theorem positionOf_failsOnly (percent : Float) (source : ShareSource) (body : Bytes) :
    FailsOnly (fun fault => fault.kind = .pattern) (positionOf percent source body) := by
  unfold positionOf
  split
  · exact .ok 0
  · cases source with
    | whole => exact .ok 0
    | native => exact .ok nativePosition
    | token token => exact locate_failsOnly _ _ _

/-- A share fails for want of its source, or for one of its own fields. -/
theorem of_failsOnly (percent : Float) (source : ShareSource) (body : Bytes) :
    FailsOnly (fun fault => fault.kind = .pattern ∨ fault.kind = .structural)
      (Share.of percent source body) := by
  have hfield : ∀ name width value,
      FailsOnly (fun fault => fault.kind = .pattern ∨ fault.kind = .structural)
        (field name width value) :=
    fun name width value => (field_failsOnly name width value).mono fun fault hfault =>
      .inr (by rw [hfault.1]; rfl)
  refine ((positionOf_failsOnly _ _ _).mono fun _ hkind => .inl hkind).bind fun _ _ => ?_
  exact (hfield _ _ _).bind fun _ _ => (hfield _ _ _).bind fun _ _ => .ok _

/-- The fields hold whatever can be counted. -/
theorem of_failsOnly_of_lt {percent : Float} {source : ShareSource} {body : Bytes}
    (hlength : body.length < Bytes.capacity 8) :
    FailsOnly (fun fault => fault.kind = .pattern) (Share.of percent source body) := by
  cases hposition : positionOf percent source body with
  | ok position =>
      obtain ⟨share, hshare⟩ := exists_of ⟨position, hposition⟩ hlength
      exact .of_eq_ok hshare
  | error cause =>
      rw [Share.of, hposition]
      exact .error (positionOf_failsOnly _ _ _ cause hposition)

end Share

/-- A list of short pieces is not long. -/
theorem length_flatMap_le {α β : Type} {list : List α} {write : α → List β} {bound : Nat}
    (h : ∀ element ∈ list, (write element).length ≤ bound) :
    (list.flatMap write).length ≤ list.length * bound := by
  induction list with
  | nil => simp
  | cons element rest ih =>
      have helement := h element List.mem_cons_self
      have hrest := ih fun other hmem => h other (List.mem_cons_of_mem _ hmem)
      rw [List.flatMap_cons, List.length_append, List.length_cons, Nat.succ_mul]
      omega

theorem Leg.length_frames_le (leg : Leg) : leg.frames.length ≤ 5 := by
  have hone : ∀ frame : Option Frame, frame.toList.length ≤ 1 := by
    intro frame
    cases frame <;> simp
  have hwrap := hone leg.wrap
  have happrove := hone leg.approve
  have hunwrap := hone leg.unwrap
  have htransfer := hone leg.transfer
  simp only [frames, List.length_append, List.length_singleton]
  omega

/-- The frames of a fill fit, so their code is short. -/
theorem Plan.LegBuilt.length_lt {plan : Plan} {route : PlacedRoute} {hop : PlacedHop}
    {held : NativeForm} {adapters : List Adapter} {here : Bool} {fill : Fill} {adapter : Adapter}
    {leg : Leg} (h : plan.LegBuilt (plan.scene route hop held adapters) here fill adapter leg) :
    (codeBytes leg.code).length < Bytes.capacity 8 := by
  have hframe : ∀ frame ∈ leg.frames, frame.bytes.length ≤ Bytes.capacity 4 + 60 := by
    intro frame hmem
    obtain ⟨_, _, hsafe⟩ := h.patchSafe.of_mem hmem
    have hfits := hsafe.fits.1
    rw [Frame.length_bytes]
    omega
  have hlength := length_flatMap_le hframe
  have hcount := leg.length_frames_le
  have hcapacity : 5 * (Bytes.capacity 4 + 60) < Bytes.capacity 8 := by decide
  have hbytes : codeBytes leg.code = leg.frames.flatMap Frame.bytes := codeBytes_frames leg.frames
  rw [hbytes]
  exact Nat.lt_of_le_of_lt (hlength.trans (Nat.mul_le_mul_right _ hcount)) hcapacity

namespace Plan

variable {plan : Plan} {route : PlacedRoute} {hop : PlacedHop} {held : NativeForm}
  {placed : PlacedFill} {adapter : Adapter}

/-! ## What the compiler comes to and writes -/

/-- The compiler comes to a fill: to its hop, and there to its adapter. -/
structure ReachesFill (plan : Plan) (route : PlacedRoute) (hop : PlacedHop) (held : NativeForm)
    (placed : PlacedFill) (adapter : Adapter) : Prop where
  route_mem : route ∈ plan.layout.routes
  reached : plan.Reaches route hop held
  fill_mem : placed ∈ hop.fills
  adapter_at : plan.adapters[placed.index]? = some adapter

/-- The frames around and of an exchange call, as far as their length depends on calldata,
and the branches. -/
inductive Writes (plan : Plan) : Frame → Prop
  | wrap {deposit : Bytes} : plan.deposit? = some deposit →
      Writes plan (Frame.wrap plan.network.wrapped deposit)
  | unwrap {withdraw : Bytes} {flag : Flag} {frame : Frame} : plan.withdraw? = some withdraw →
      Frame.unwrap plan.network.wrapped withdraw flag = .ok frame → Writes plan frame
  | call {route : PlacedRoute} {hop : PlacedHop} {held : NativeForm} {placed : PlacedFill}
      {adapter : Adapter} {frame : Frame} : plan.ReachesFill route hop held placed adapter →
      (plan.call (plan.scene route hop held (plan.adaptersAt hop)) placed.fill adapter).frame =
        .ok frame → Writes plan frame
  | hopBranch {route : PlacedRoute} {hop : PlacedHop} {held : NativeForm} {parts : List Part}
      {flag : Flag} {branch : Branch} :
      route ∈ plan.layout.routes → plan.Reaches route hop held →
      plan.parts (plan.scene route hop held (plan.adaptersAt hop)) false
        (hop.fills.zip (plan.adaptersAt hop)) = .ok parts →
      plan.branchFlag? hop (plan.adaptersAt hop) = some flag →
      Branch.of plan.network.executor flag
        (some (if plan.network.isNative hop.hop.destination then plan.network.wrapped
          else hop.hop.destination)) (codeBytes (parts.flatMap Part.code)) = .ok branch →
      Writes plan (branch.frame (codeBytes (parts.flatMap Part.code)))
  | rootBranch {parts : List RoutePart} {branch : Branch} : plan.routes = .ok parts →
      Branch.of plan.network.executor plan.rootBranchFlag (some plan.network.wrapped)
        (codeBytes (routesCode parts)) = .ok branch →
      Writes plan (branch.frame (codeBytes (routesCode parts)))

/-- At some fill native asset is held raw, and the exchange wants it wrapped. -/
def NeedsWrap (plan : Plan) : Prop :=
  ∃ route hop held placed adapter, plan.ReachesFill route hop held placed adapter ∧
    plan.wrapsAt (plan.scene route hop held (plan.adaptersAt hop)) false adapter = true

/-- What an exchange has delivered wrapped has to be unwrapped: beside the exchange in a trade
of a single hop, between two hops if others have delivered raw asset, or behind all
routes. -/
inductive NeedsUnwrap (plan : Plan) : Prop
  | beside {route : PlacedRoute} {hop : PlacedHop} {held : NativeForm} {placed : PlacedFill}
      {adapter : Adapter} : plan.topology = .single →
      plan.ReachesFill route hop held placed adapter →
      (plan.network.isNative hop.hop.destination && adapter.wrapsNative) = true →
      NeedsUnwrap plan
  | between {route : PlacedRoute} {hop : PlacedHop} {held : NativeForm} :
      route ∈ plan.layout.routes → plan.Reaches route hop held →
      (plan.network.isNative hop.hop.destination && !hop.last &&
        (plan.adaptersAt hop).any (·.wrapsNative) &&
        (plan.adaptersAt hop).any (!·.wrapsNative)) = true → NeedsUnwrap plan
  | behind : plan.rootUnwrap = true → NeedsUnwrap plan

/-- The amounts that exchange calls are searched for. -/
inductive Searches (plan : Plan) : Nat → Prop
  | call {route : PlacedRoute} {hop : PlacedHop} {held : NativeForm} {placed : PlacedFill}
      {adapter : Adapter} : plan.ReachesFill route hop held placed adapter →
      (plan.callFlag (plan.scene route hop held (plan.adaptersAt hop)) adapter).patches = true →
      Searches plan placed.fill.sourceAmount

/-- The amounts that are passed to calls of token contracts: allowances of what is sold and
transfers of what is bought. -/
inductive Passes (plan : Plan) : Nat → Prop
  | approve {route : PlacedRoute} {hop : PlacedHop} {held : NativeForm} {placed : PlacedFill}
      {adapter : Adapter} : plan.ReachesFill route hop held placed adapter →
      plan.network.isNative (plan.network.dealt adapter hop.hop.source) = false →
      Passes plan placed.fill.sourceAmount
  | transfer {route : PlacedRoute} {hop : PlacedHop} {held : NativeForm} {placed : PlacedFill}
      {adapter : Adapter} : plan.ReachesFill route hop held placed adapter →
      (hop.last && !adapter.paysRecipient && !plan.network.isNative hop.hop.destination) = true →
      Passes plan placed.fill.destinationAmount

/-- What can stop the compilation of a planned trade. -/
inductive Stops (plan : Plan) : Fault → Prop
  | pattern {fault : Fault} : fault.kind = .pattern → Stops plan fault
  | topology {fault : Fault} : fault.kind = .topology → Stops plan fault
  | adapter {route : PlacedRoute} {hop : PlacedHop} {placed : PlacedFill} :
      route ∈ plan.layout.routes → hop ∈ route.hops → placed ∈ hop.fills →
      plan.adapters[placed.index]? = none → Stops plan (.adapterMissing placed.index)
  | deposit : plan.deposit? = none → plan.NeedsWrap → Stops plan .depositMissing
  | withdraw : plan.withdraw? = none → plan.NeedsUnwrap → Stops plan .withdrawMissing
  | withdrawLength {withdraw : Bytes} : plan.withdraw? = some withdraw → withdraw.length < 36 →
      Stops plan (.withdrawTooShort withdraw.length)
  | frame {frame : Frame} {fault : Fault} : plan.Writes frame → frame.Misfit fault →
      Stops plan fault
  | searched {amount : Nat} : plan.Searches amount → Bytes.capacity 32 ≤ amount →
      Stops plan (.amountTooWide amount)
  | passed {amount : Nat} : plan.Passes amount → Bytes.capacity 32 ≤ amount →
      Stops plan (.argumentTooWide amount)
  /-- Code that no machine can hold is too long for the header of its share. -/
  | uncountable {fault : Fault} : ¬ plan.Countable → fault.kind = .structural → Stops plan fault

/-! ## What stops the compiler -/

theorem wrapFrame_failsOnly (hneeds : plan.deposit? = none → plan.NeedsWrap) :
    FailsOnly plan.Stops plan.wrapFrame := by
  unfold wrapFrame Job.deposit
  cases hdeposit : plan.deposit? with
  | none => exact .error (.deposit hdeposit (hneeds hdeposit))
  | some deposit =>
      exact (Frame.checked_failsOnly _).mono fun _ hmisfit => .frame (.wrap hdeposit) hmisfit

theorem unwrapFrame_failsOnly (flag : Flag) (hneeds : plan.NeedsUnwrap) :
    FailsOnly plan.Stops (plan.unwrapFrame flag) := by
  unfold unwrapFrame Job.withdraw
  cases hwithdraw : plan.withdraw? with
  | none => exact .error (.withdraw hwithdraw hneeds)
  | some withdraw =>
      show FailsOnly plan.Stops
        (Frame.unwrap plan.network.wrapped withdraw flag >>= Frame.checked)
      refine ((Frame.unwrap_failsOnly _ withdraw flag).mono ?_).bind fun frame hframe => ?_
      · rintro _ ⟨rfl, hshort⟩
        exact .withdrawLength hwithdraw hshort
      · exact (Frame.checked_failsOnly _).mono fun _ hmisfit =>
          .frame (.unwrap hwithdraw hframe) hmisfit

theorem legSteps (h : plan.ReachesFill route hop held placed adapter) (served : Bool) :
    plan.LegSteps plan.Stops (plan.scene route hop held (plan.adaptersAt hop))
      (plan.wrapsAt (plan.scene route hop held (plan.adaptersAt hop)) served adapter)
      placed.fill adapter := by
  constructor
  · intro hhere
    refine wrapFrame_failsOnly fun _ => ⟨route, hop, held, placed, adapter, h, ?_⟩
    -- a wrap that an earlier fill may serve is needed at the latest here
    rw [wrapsAt, Bool.and_eq_true] at hhere ⊢
    exact ⟨hhere.1, by simp⟩
  · intro hsold
    refine (Frame.ofAmountCall_failsOnly rfl _ _ _).mono ?_
    rintro _ ⟨rfl, hwide⟩
    exact .passed (.approve h hsold) hwide
  · intro cause hcause
    rcases Call.frame_failsOnly _ cause hcause with hkind | ⟨hpatches, hwide, rfl⟩
    · exact .pattern (by rwa [Fault.kind_locate])
    · exact .searched (.call h hpatches) hwide
  · intro frame hframe
    exact (Frame.checked_failsOnly _).mono fun _ hmisfit => .frame (.call h hframe) hmisfit
  · intro hsingle hunwraps
    exact unwrapFrame_failsOnly _ (.beside hsingle h hunwraps)
  · intro htransfers
    refine (Frame.ofAmountCall_failsOnly rfl _ _ _).mono ?_
    rintro _ ⟨rfl, hwide⟩
    exact .passed (.transfer h htransfers) hwide

theorem hopSteps (hroute : route ∈ plan.layout.routes) (hreached : plan.Reaches route hop held)
    {adapters : List Adapter} (hfound : hop.adapters plan.adapters = .ok adapters) :
    plan.HopSteps plan.Stops route hop held adapters := by
  obtain rfl : plan.adaptersAt hop = adapters := Job.adaptersAt_eq hfound
  constructor
  · exact (plan.checkCombination_failsOnly _ _).mono fun _ hkind => .topology hkind
  · intro placed hplaced adapter _ hgiven served
    exact legSteps ⟨hroute, hreached, hplaced, hgiven⟩ served
  · intro fill adapter _ served leg _ hleg
    exact (Share.of_failsOnly_of_lt hleg.length_lt).mono fun _ hkind => .pattern hkind
  · intro parts flag hparts hflag
    refine ((Branch.of_failsOnly _ _ _ _).mono fun _ hkind => .pattern hkind).bind
      fun branch hbranch => ?_
    refine ((Frame.checked_failsOnly _).mono fun _ hmisfit => ?_).bind fun _ _ => .ok _
    exact .frame (.hopBranch hroute hreached hparts hflag hbranch) hmisfit
  · intro hunwraps
    exact unwrapFrame_failsOnly _ (.between hroute hreached hunwraps)

theorem routeSteps (hroute : route ∈ plan.layout.routes) : plan.RouteSteps plan.Stops route := by
  constructor
  · intro hop held hreached
    refine hop_failsOnly_of_steps ((hop.adapters_failsOnly plan.adapters).mono ?_)
      fun adapters hfound => hopSteps hroute hreached hfound
    rintro _ ⟨placed, hplaced, hnone, rfl⟩
    exact .adapter hroute hreached.mem hplaced hnone
  · intro code hcode
    by_cases hcountable : plan.Countable
    · exact (Share.of_failsOnly_of_lt (hcountable.length_lt hroute hcode)).mono
        fun _ hkind => .pattern hkind
    · exact (Share.of_failsOnly _ _ _).mono fun _ hkind =>
        hkind.elim .pattern (.uncountable hcountable)

section

variable {program : Program}

/-- A trade that is not parallel has one route. -/
theorem length_routes_of_sequential {trade : Trade} (h : trade.topology = .sequential) :
    trade.routes.length = 1 := by
  unfold Trade.topology at h
  split at h
  · next hroutes => rw [hroutes, List.length_singleton]
  · exact nomatch h

/-- Around the only route of a trade, or with the branch that holds all routes, the code
is not much longer than what can be counted. -/
theorem length_branched_le (hcountable : plan.Countable)
    (hroutes : plan.routes = .ok program.routes)
    (hbranch : onlyIf (plan.topology = .parallel && plan.rootNative)
      (plan.rootBranch (codeBytes (routesCode program.routes))) = .ok program.branch)
    (hshared : plan.topology = .sequential ∨
      (plan.topology = .parallel ∧ plan.rootNative = true)) :
    (codeBytes (branched program.branch (routesCode program.routes))).length ≤
      Bytes.capacity 8 := by
  rcases hshared with hsequential | ⟨hparallel, hroot⟩
  · have hbuilt := routes_eq_ok_iff.1 hroutes
    have hone : plan.layout.routes.length = 1 :=
      (length_placeRoutes 0 0 plan.trade.routes).trans (length_routes_of_sequential hsequential)
    obtain ⟨placed, hplaced⟩ := List.length_eq_one_iff.1 hone
    rw [hplaced, List.forall₂_cons_left_iff] at hbuilt
    obtain ⟨part, rest, hpart, hrest, hparts⟩ := hbuilt
    obtain rfl := List.forall₂_nil_left_iff.1 hrest
    -- its code stands alone, without a share or a branch
    have hbare : program.branch = none := eq_none_of_onlyIf hbranch (by rw [hsequential]; rfl)
    have hshare : part.share = none := eq_none_of_onlyIf hpart.share (by rw [hsequential]; rfl)
    have hcode : plan.route placed = .ok part.route := by
      obtain ⟨code, hcode, hpart⟩ := bind_eq_ok_iff.1 (routePart_eq_ok_iff.2 hpart)
      obtain ⟨share, _, hpart⟩ := bind_eq_ok_iff.1 hpart
      rw [hcode, ← Except.ok.inj hpart]
    have hlength := hcountable.length_lt (by rw [hplaced]; exact List.mem_cons_self) hcode
    have hbytes : codeBytes (branched program.branch (routesCode program.routes)) =
        codeBytes part.route.code := by
      rw [hbare, hparts]
      simp [branched, routesCode, RoutePart.code, hshare, shared]
    rw [hbytes]
    exact Nat.le_of_lt hlength
  · obtain ⟨branch, hsome, hbuilt⟩ := exists_of_onlyIf hbranch (by rw [hparallel, hroot]; rfl)
    have hfits := (rootBranch_eq_ok_iff.1 hbuilt).2.1
    have hcapacity : Bytes.capacity 4 + 60 ≤ Bytes.capacity 8 := by decide
    rw [hsome]
    simp only [branched, codeBytes_cons, codeBytes_nil, List.append_nil, Instruction.bytes,
      Frame.length_bytes]
    omega

theorem length_optional_le {needed : Bool} {build : Except Fault Frame} {frame : Option Frame}
    (h : onlyIf needed build = .ok frame) (hfits : ∀ found, build = .ok found → found.Fits) :
    (codeBytes (frame.toList.map .frame)).length ≤ Bytes.capacity 4 + 60 := by
  cases frame with
  | none => simp
  | some frame =>
      have hlength := (hfits frame (eq_ok_of_onlyIf h)).1
      simp only [Option.toList_some, List.map_cons, List.map_nil, codeBytes_cons, codeBytes_nil,
        List.append_nil, Instruction.bytes, Frame.length_bytes]
      omega

end

/-- Nothing else stops the compilation of a planned trade. -/
theorem program_stops (hsettled : plan.Settled) : FailsOnly plan.Stops plan.program := by
  refine ProgramSteps.failsOnly ⟨fun route hroute => routeSteps hroute, ?_, ?_, ?_, ?_⟩
  · intro parts hparts _ _
    refine ((Branch.of_failsOnly _ _ _ _).mono fun _ hkind => .pattern hkind).bind
      fun branch hbranch => ?_
    refine ((Frame.checked_failsOnly _).mono fun _ hmisfit => ?_).bind fun _ _ => .ok _
    exact .frame (.rootBranch hparts hbranch) hmisfit
  · intro hroot
    refine wrapFrame_failsOnly fun hnone => ?_
    -- the source is wrapped in front of all routes only if there is calldata for it
    have hwraps := hsettled.rootWrap
    rw [hroot, hnone] at hwraps
    simp at hwraps
  · intro hroot
    exact unwrapFrame_failsOnly _ (.behind hroot)
  · intro program hroutes hbranch hwrap hunwrap hforward hshared
    by_cases hcountable : plan.Countable
    · have hinner := length_branched_le hcountable hroutes hbranch hshared
      have hwrap := length_optional_le hwrap fun _ => fits_of_wrapFrame
      have hunwrap := length_optional_le hunwrap fun _ => fits_of_unwrapFrame
      have hforward := length_optional_le hforward fun _ hsent => by
        rw [Frame.sendNative_checked_eq_ok_iff.1 hsent]
        exact Frame.sendNative_fits
      have hlength : (codeBytes program.content).length < Bytes.capacity 16 := by
        have hsum := Nat.add_le_add (Nat.add_le_add (Nat.add_le_add hwrap hinner) hunwrap) hforward
        rw [Program.content, codeBytes_append, codeBytes_append, codeBytes_append,
          List.length_append, List.length_append, List.length_append]
        exact Nat.lt_of_le_of_lt hsum (by decide)
      obtain ⟨share, hshare⟩ := Share.exists_whole 100.0 hlength
      exact .of_eq_ok hshare
    · exact (Share.of_failsOnly _ _ _).mono fun _ hkind =>
        hkind.elim .pattern (.uncountable hcountable)

end Plan

/-- A job stops at its check, at a plan that has no calldata to unwrap with, or where its
plan does. -/
theorem Job.bytecode_failsOnly {job : Job} {sort : Fault → Prop}
    (hcheck : FailsOnly sort job.check)
    (hwithdraw : job.unwrapsRoot = true → job.withdraw? = none → sort .withdrawMissing)
    (hstops : ∀ plan, Plan.of job = .ok plan → ∀ fault, plan.Stops fault → sort fault) :
    FailsOnly sort job.bytecode := by
  refine FailsOnly.map (hcheck.bind fun _ hchecked => FailsOnly.bind ?_ fun plan hplan => ?_)
  · rw [Plan.of_eq (Trade.connected_of_check hchecked).2]
    split
    · next hmissing =>
        rw [Bool.and_eq_true, Option.isNone_iff_eq_none] at hmissing
        exact .error (hwithdraw hmissing.1 hmissing.2)
    · exact .ok _
  · exact (Plan.program_stops (Plan.settled_of_eq_ok hplan).2).mono (hstops plan hplan)

end SwapCompiler
