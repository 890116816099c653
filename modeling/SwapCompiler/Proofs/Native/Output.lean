import SwapCompiler.Proofs.Calls
import SwapCompiler.Proofs.ReadingOrder

/-!
# Native asset that was bought is not stranded

What the last hops deliver wrapped is unwrapped, beside the exchange in a trade of
a single hop and behind all routes in any other trade.  What is then left with
the executor is sent on by one terminal frame, the last of the whole code.

* `Job.OutputSettled` says so, case by case.
* The terminal frame is built at the end of the last route or behind the root
  unwrap; `Plan.route_forward` and `exists_forward_routesReading` put the first case
  at the end of the code.
* `Job.outputSettled` holds of every compiled trade.
-/

namespace SwapCompiler

/-- An exchange leaves native asset with the executor: it does not pay the
recipient, or it delivers the wrapped token. -/
def Adapter.leavesOutput (adapter : Adapter) : Bool :=
  !adapter.paysRecipient || adapter.wrapsNative

namespace Job

/-- The frame unwraps asset that was bought. -/
def UnwrapsOutput (job : Job) (frame : Frame) : Prop :=
  ∃ withdraw, job.withdraw? = some withdraw ∧
    Frame.unwrap job.network.wrapped withdraw Frame.unwrapFlag = .ok frame

/-- What a trade does with the native asset that it buys. -/
structure OutputSettled (job : Job) (program : Program) : Prop where
  /-- In a trade of a single hop, every exchange that delivers the wrapped token
  is directly followed by an unwrap. -/
  single : job.trade.topology = .single → job.nativeDestination = true →
    List.Forall₂ (fun adapter leg => adapter.wrapsNative = true →
      ∃ front frame back, leg.reading = front ++ (.call, leg.call) :: (.unwrap, frame) :: back ∧
        job.UnwrapsOutput frame) job.adapters program.legs
  /-- In any other trade, one unwrap follows all routes if some last exchange
  delivers the wrapped token. -/
  root : job.trade.topology ≠ .single → job.nativeDestination = true →
    job.lastAdapters.any (·.wrapsNative) = true →
      ∃ front frame back,
        program.reading =
            front ++ routesReading program.routes ++ (.rootUnwrap, frame) :: back ∧
          job.UnwrapsOutput frame ∧
          ∀ entry ∈ front ++ routesReading program.routes ++ back, entry.1 ≠ .rootUnwrap
  /-- The native balance is sent on once, behind every other frame, if some last
  exchange leaves asset with the executor. -/
  forwards : job.nativeDestination = true → job.lastAdapters.any Adapter.leavesOutput = true →
    ∃ others, program.reading = others ++ [(.forward, Frame.sendNative)] ∧
      ∀ entry ∈ others, entry.1 ≠ .forward
  /-- Otherwise it is not sent on. -/
  keeps : job.nativeDestination = true → job.lastAdapters.any Adapter.leavesOutput = false →
    ∀ entry ∈ program.reading, entry.1 ≠ .forward
  /-- A trade that buys a token neither unwraps it nor sends native asset on. -/
  foreign : job.nativeDestination = false →
    ∀ entry ∈ program.reading, entry.1 ≠ .forward ∧ entry.1 ≠ .rootUnwrap

end Job

/-! ## Roles inside routes -/

section

variable {route : RouteCode} {routes : List RoutePart}

theorem HopCode.role_ne_of_mem_reading {hop : HopCode} {entry : Role × Frame}
    (h : entry ∈ hop.reading) : entry.1 ≠ .rootUnwrap ∧ entry.1 ≠ .forward := by
  have hrole := HopCode.role_of_mem_reading h
  constructor <;> rintro heq <;> simp [heq] at hrole

theorem Program.role_ne_of_mem_opening {program : Program} {entry : Role × Frame}
    (h : entry ∈ program.opening) : entry.1 ≠ .rootUnwrap ∧ entry.1 ≠ .forward := by
  have hrole := Program.role_of_mem_opening h
  constructor <;> rintro heq <;> simp [heq] at hrole

/-- The only frame that can send asset on inside a route is its last. -/
theorem RouteCode.mem_reading {entry : Role × Frame} (h : entry ∈ route.reading) :
    entry.1 ≠ .rootUnwrap ∧ (entry.1 = .forward → entry.2 ∈ route.forward) := by
  rw [RouteCode.reading, List.mem_append, List.mem_flatMap, mem_asRole] at h
  rcases h with ⟨hop, _, hmem⟩ | ⟨hrole, hframe⟩
  · obtain ⟨hroot, hforward⟩ := HopCode.role_ne_of_mem_reading hmem
    exact ⟨hroot, fun heq => absurd heq hforward⟩
  · exact ⟨by simp [hrole], fun _ => hframe⟩

theorem role_ne_rootUnwrap_of_mem_routesReading {entry : Role × Frame}
    (h : entry ∈ routesReading routes) : entry.1 ≠ .rootUnwrap := by
  obtain ⟨part, _, hmem⟩ := List.mem_flatMap.1 h
  exact (RouteCode.mem_reading hmem).1

theorem role_ne_forward_of_mem_routesReading
    (hnone : ∀ part ∈ routes, part.route.forward = none) {entry : Role × Frame}
    (h : entry ∈ routesReading routes) : entry.1 ≠ .forward := by
  obtain ⟨part, hpart, hmem⟩ := List.mem_flatMap.1 h
  intro hrole
  have hframe := (RouteCode.mem_reading hmem).2 hrole
  rw [hnone part hpart] at hframe
  exact nomatch hframe

/-- A frame that sends asset on behind the last route is the last frame of all
routes. -/
theorem exists_forward_routesReading {front : List RoutePart} {last : RoutePart} {frame : Frame}
    (hnone : ∀ part ∈ front, part.route.forward = none) (hlast : last.route.forward = some frame) :
    ∃ others, routesReading (front ++ [last]) = others ++ [(.forward, frame)] ∧
      ∀ entry ∈ others, entry.1 ≠ .forward := by
  refine ⟨routesReading front ++ last.route.hops.flatMap HopCode.reading, ?_, ?_⟩
  · simp [routesReading, RouteCode.reading, hlast, asRole]
  · intro entry hmem
    rcases List.mem_append.1 hmem with hmem | hmem
    · exact role_ne_forward_of_mem_routesReading hnone hmem
    · obtain ⟨hop, _, hmem⟩ := List.mem_flatMap.1 hmem
      exact (HopCode.role_ne_of_mem_reading hmem).2

end

/-! ## Where the terminal frame stands -/

namespace Plan

variable {plan : Plan} {program : Program}

/-- Only the last route ends with a terminal frame, and only if the plan says
so. -/
theorem route_forward {parts : List RoutePart}
    (h : List.Forall₂ plan.RouteBuilt plan.layout.routes parts) {r : Nat} {part : RoutePart}
    (hpart : parts[r]? = some part) :
    part.route.forward =
      if plan.forwardNative && r + 1 = parts.length then some Frame.sendNative else none := by
  have hlength : plan.trade.routes.length = parts.length := by
    rw [← h.length_eq]
    exact (length_placeRoutes 0 0 plan.trade.routes).symm
  obtain ⟨hr, _⟩ := List.getElem?_eq_some_iff.1 hpart
  rw [← h.length_eq] at hr
  obtain ⟨placed, hplaced⟩ : ∃ placed, plan.layout.routes[r]? = some placed :=
    ⟨_, List.getElem?_eq_getElem hr⟩
  obtain ⟨hposition, _⟩ := Layout.placed_of_getElem? hplaced
  have hforward := (rel_of_forall₂ h hplaced hpart).forward
  rw [hposition, hlength] at hforward
  cases hneeded : plan.forwardNative && decide (r + 1 = parts.length) with
  | false => exact eq_none_of_onlyIf hforward hneeded
  | true =>
      obtain ⟨frame, hframe, hsend⟩ := exists_of_onlyIf hforward hneeded
      rw [hframe, Frame.sendNative_checked_eq_ok_iff.1 hsend]
      rfl

/-- Without a terminal frame behind the last route there is none in any route. -/
theorem ProgramBuilt.route_forward_eq_none (h : plan.ProgramBuilt program)
    (hforward : plan.forwardNative = false) :
    ∀ part ∈ program.routes, part.route.forward = none := by
  intro part hmem
  obtain ⟨r, hr⟩ := List.mem_iff_getElem?.1 hmem
  rw [route_forward h.routes hr, hforward]
  rfl

/-- The terminal frame behind the last route is the last frame of all routes. -/
theorem ProgramBuilt.exists_forward (h : plan.ProgramBuilt program)
    (hforward : plan.forwardNative = true) (hroutes : program.routes ≠ []) :
    ∃ others, routesReading program.routes = others ++ [(.forward, Frame.sendNative)] ∧
      ∀ entry ∈ others, entry.1 ≠ .forward := by
  rcases List.eq_nil_or_concat program.routes with hnil | ⟨front, last, hparts⟩
  · exact absurd hnil hroutes
  rw [List.concat_eq_append] at hparts
  have hlength : program.routes.length = front.length + 1 := by
    rw [hparts, List.length_append]
    rfl
  rw [hparts]
  refine exists_forward_routesReading (fun part hmem => ?_) ?_
  · obtain ⟨r, hr⟩ := List.mem_iff_getElem?.1 hmem
    obtain ⟨hlt, _⟩ := List.getElem?_eq_some_iff.1 hr
    have hpart : program.routes[r]? = some part := by
      rw [hparts, List.getElem?_append_left hlt, hr]
    have hbefore : ¬ r + 1 = program.routes.length := by omega
    rw [route_forward h.routes hpart]
    simp [hbefore]
  · have hlast : program.routes[front.length]? = some last := by
      rw [hparts, List.getElem?_append_right (Nat.le_refl _), Nat.sub_self]
      rfl
    rw [route_forward h.routes hlast, hforward, hlength]
    simp

/-- Where nothing is unwrapped behind all routes, the plan sends asset on exactly
if some last exchange leaves it with the executor. -/
theorem Settled.forwardNative_eq (h : plan.Settled) (hroot : plan.rootUnwrap = false) :
    plan.forwardNative =
      (plan.nativeDestination && plan.lastAdapters.any Adapter.leavesOutput) := by
  rw [h.forwardNative, hroot, Bool.not_false, Bool.true_and]
  cases hnative : plan.nativeDestination with
  | false => rfl
  | true =>
      rw [Bool.true_and, Bool.true_and]
      by_cases htopology : plan.topology = .single
      · refine congrArg plan.lastAdapters.any (funext fun adapter => ?_)
        simp [Adapter.leavesOutput, htopology]
      -- an exchange that delivers the wrapped token would have asked for the unwrap
      · have hnone : plan.lastAdapters.any (·.wrapsNative) = false := by
          have hroots := h.rootUnwrap
          rw [hroot, hnative] at hroots
          simpa [htopology] using hroots.symm
        rw [Bool.eq_iff_iff, List.any_eq_true, List.any_eq_true]
        refine exists_congr fun adapter => and_congr_right fun hmem => ?_
        have hwraps : adapter.wrapsNative = false := by
          simpa using List.any_eq_false.1 hnone adapter hmem
        simp [Adapter.leavesOutput, hwraps]

theorem ProgramBuilt.routes_ne_nil (h : plan.ProgramBuilt program)
    (hconnected : plan.trade.Connected) : program.routes ≠ [] := by
  intro hnil
  refine hconnected.routes_ne_nil (List.eq_nil_of_length_eq_zero ?_)
  have hlength := h.routes.length_eq
  rw [hnil] at hlength
  rw [← length_placeRoutes 0 0 plan.trade.routes]
  exact hlength

/-! ## Case by case -/

/-- Beside its call, a leg of a trade of a single hop unwraps what its exchange
delivers. -/
theorem ProgramBuilt.unwraps_single (h : plan.ProgramBuilt program)
    (hconnected : plan.trade.Connected)
    (hadapters : plan.adapters.length = plan.trade.fills.length)
    (hsingle : plan.topology = .single) (hnative : plan.nativeDestination = true) :
    List.Forall₂ (fun adapter leg => adapter.wrapsNative = true →
      ∃ front frame back, leg.reading = front ++ (.call, leg.call) :: (.unwrap, frame) :: back ∧
        plan.UnwrapsOutput frame) plan.adapters program.legs := by
  refine forall₂_of_getElem? (hadapters.trans h.length_legs.symm)
    fun k adapter leg hadapter hleg hwraps => ?_
  obtain ⟨hop, fill, found, hsite, _, hfound, hserves⟩ := h.serves_at hleg
  obtain rfl : found = adapter := Option.some.inj (hfound.symm.trans hadapter)
  have hdestination : hop.hop.destination = plan.trade.destination :=
    hconnected.destination_of_single hsingle (List.mem_of_getElem? hsite)
  obtain ⟨hpresent, hunwrap⟩ := hserves.unwrap
  have hneeded : leg.unwrap.isSome = true := by
    have hbuys : plan.network.isNative plan.trade.destination = true := hnative
    rw [hpresent, hsingle, hdestination, hbuys, hwraps]
    rfl
  obtain ⟨frame, hframe⟩ := Option.isSome_iff_exists.1 hneeded
  obtain ⟨withdraw, hwithdraw, hbuilt, _⟩ := unwrapFrame_eq_ok_iff.1 (hunwrap frame hframe)
  refine ⟨asRole .wrap leg.wrap ++ asRole .approve leg.approve, frame,
    asRole .transfer leg.transfer, ?_, withdraw, hwithdraw, hbuilt⟩
  simp [Leg.reading, hframe, asRole]

theorem ProgramBuilt.exists_unwrap (h : plan.ProgramBuilt program)
    (hroot : plan.rootUnwrap = true) :
    ∃ frame, program.unwrap = some frame ∧ plan.UnwrapsOutput frame ∧
      program.forward = some Frame.sendNative := by
  obtain ⟨frame, hframe, hbuilt⟩ := exists_of_onlyIf h.unwrap hroot
  obtain ⟨forward, hforward, hsend⟩ := exists_of_onlyIf h.forward hroot
  obtain ⟨withdraw, hwithdraw, hunwrap, _⟩ := unwrapFrame_eq_ok_iff.1 hbuilt
  obtain rfl := Frame.sendNative_checked_eq_ok_iff.1 hsend
  exact ⟨frame, hframe, ⟨withdraw, hwithdraw, hunwrap⟩, hforward⟩

/-- Without an unwrap behind them, the routes end the code. -/
theorem ProgramBuilt.reading_eq (h : plan.ProgramBuilt program)
    (hroot : plan.rootUnwrap = false) :
    program.reading = program.opening ++ routesReading program.routes := by
  have hunwrap := eq_none_of_onlyIf h.unwrap hroot
  have hforward := eq_none_of_onlyIf h.forward hroot
  simp [Program.reading, hunwrap, hforward, asRole]

/-- A plan without a terminal frame has none anywhere. -/
theorem ProgramBuilt.role_ne_of_kept (h : plan.ProgramBuilt program)
    (hroot : plan.rootUnwrap = false) (hforward : plan.forwardNative = false) :
    ∀ entry ∈ program.reading, entry.1 ≠ .forward ∧ entry.1 ≠ .rootUnwrap := by
  intro entry hmem
  rw [h.reading_eq hroot, List.mem_append] at hmem
  rcases hmem with hmem | hmem
  · exact (Program.role_ne_of_mem_opening hmem).symm
  · exact ⟨role_ne_forward_of_mem_routesReading (h.route_forward_eq_none hforward) hmem,
      role_ne_rootUnwrap_of_mem_routesReading hmem⟩

theorem ProgramBuilt.forwards (h : plan.ProgramBuilt program) (hsettled : plan.Settled)
    (hconnected : plan.trade.Connected) (hnative : plan.nativeDestination = true)
    (hleaves : plan.lastAdapters.any Adapter.leavesOutput = true) :
    ∃ others, program.reading = others ++ [(.forward, Frame.sendNative)] ∧
      ∀ entry ∈ others, entry.1 ≠ .forward := by
  -- the terminal frame stands behind the root unwrap or behind the last route
  cases hroot : plan.rootUnwrap with
  | true =>
      obtain ⟨frame, hframe, _, hforward⟩ := h.exists_unwrap hroot
      have hkept : plan.forwardNative = false := by
        rw [hsettled.forwardNative, hroot]
        rfl
      refine ⟨program.opening ++ routesReading program.routes ++ [(.rootUnwrap, frame)], ?_,
        fun entry hmem => ?_⟩
      · simp [Program.reading, hframe, hforward, asRole]
      · rw [List.mem_append, List.mem_append, List.mem_singleton] at hmem
        rcases hmem with (hmem | hmem) | rfl
        · exact (Program.role_ne_of_mem_opening hmem).2
        · exact role_ne_forward_of_mem_routesReading (h.route_forward_eq_none hkept) hmem
        · simp
  | false =>
      have hforward : plan.forwardNative = true := by
        rw [hsettled.forwardNative_eq hroot, hnative, hleaves]
        rfl
      obtain ⟨others, hroutes, hothers⟩ := h.exists_forward hforward (h.routes_ne_nil hconnected)
      refine ⟨program.opening ++ others, ?_, fun entry hmem => ?_⟩
      · rw [h.reading_eq hroot, hroutes, List.append_assoc]
      · rcases List.mem_append.1 hmem with hmem | hmem
        · exact (Program.role_ne_of_mem_opening hmem).2
        · exact hothers entry hmem

/-- One unwrap stands behind all routes if some last exchange delivers the wrapped
token. -/
theorem ProgramBuilt.unwraps_root (h : plan.ProgramBuilt program) (hsettled : plan.Settled)
    (htopology : plan.topology ≠ .single) (hnative : plan.nativeDestination = true)
    (hwraps : plan.lastAdapters.any (·.wrapsNative) = true) :
    ∃ front frame back,
      program.reading = front ++ routesReading program.routes ++ (.rootUnwrap, frame) :: back ∧
        plan.UnwrapsOutput frame ∧
        ∀ entry ∈ front ++ routesReading program.routes ++ back, entry.1 ≠ .rootUnwrap := by
  have hroot : plan.rootUnwrap = true := by
    rw [hsettled.rootUnwrap, hnative, hwraps]
    simp [htopology]
  obtain ⟨frame, hframe, hunwraps, hforward⟩ := h.exists_unwrap hroot
  refine ⟨program.opening, frame, [(.forward, Frame.sendNative)], ?_, hunwraps,
    fun entry hmem => ?_⟩
  · simp [Program.reading, hframe, hforward, asRole]
  · rw [List.mem_append, List.mem_append, List.mem_singleton] at hmem
    rcases hmem with (hmem | hmem) | rfl
    · exact (Program.role_ne_of_mem_opening hmem).1
    · exact role_ne_rootUnwrap_of_mem_routesReading hmem
    · simp

/-- Where no last exchange leaves asset with the executor, there is no unwrap
behind the routes either. -/
theorem Settled.rootUnwrap_eq_false (h : plan.Settled)
    (hkeeps : plan.lastAdapters.any Adapter.leavesOutput = false) : plan.rootUnwrap = false := by
  have hwraps : plan.lastAdapters.any (·.wrapsNative) = false := by
    refine List.any_eq_false.2 fun adapter hadapter hwraps => ?_
    exact List.any_eq_false.1 hkeeps adapter hadapter (by simp [Adapter.leavesOutput, hwraps])
  rw [h.rootUnwrap, hwraps, Bool.and_false]

end Plan

/-- Native asset that a compiled trade buys is never stranded: what was delivered
wrapped is unwrapped, and what is left with the executor is sent on by the last of
all frames. -/
theorem Job.outputSettled {job : Job} {program : Program} (h : job.compile = .ok program) :
    job.OutputSettled program ∧ codeFrames program.code = program.reading.map (·.2) := by
  obtain ⟨hcheck, plan, hplan, hbuilt⟩ := Job.compile_eq_ok_iff.1 h
  obtain ⟨rfl, hsettled⟩ := Plan.settled_of_eq_ok hplan
  obtain ⟨hconnected, hadapters⟩ := Trade.connected_of_check hcheck
  refine ⟨?_, program.codeFrames_code⟩
  constructor
  · intro hsingle hnative
    exact hbuilt.unwraps_single hconnected hadapters hsingle hnative
  · intro hsingle hnative hwraps
    exact hbuilt.unwraps_root hsettled hsingle hnative hwraps
  · intro hnative hleaves
    exact hbuilt.forwards hsettled hconnected hnative hleaves
  · intro hnative hkeeps entry hmem
    have hroot := hsettled.rootUnwrap_eq_false hkeeps
    have hforward : plan.forwardNative = false := by
      rw [hsettled.forwardNative_eq hroot, hnative, hkeeps]
      rfl
    exact (hbuilt.role_ne_of_kept hroot hforward entry hmem).1
  · intro hnative entry hmem
    have hroot : plan.rootUnwrap = false := by
      rw [hsettled.rootUnwrap, hnative]
      simp
    have hforward : plan.forwardNative = false := by
      rw [hsettled.forwardNative_eq hroot, hnative]
      rfl
    exact hbuilt.role_ne_of_kept hroot hforward entry hmem

/-- Native asset is bought along two routes, by an exchange that delivers the
wrapped token and by one that does not pay the recipient. -/
def Job.purchase : Job :=
  { trade :=
      { source := .ofNat 5
        destination := .ofNat 3
        sourceAmount := 1000
        destinationAmount := 5
        routes :=
          [⟨50.0, [⟨.ofNat 5, .ofNat 3, [⟨"first", 100.0, 500, 1⟩]⟩]⟩,
            ⟨50.0, [⟨.ofNat 5, .ofNat 3, [⟨"second", 100.0, 501, 1⟩]⟩]⟩] }
    adapters := [.small 11 500 true true, .small 12 501 false false]
    wrapCalls := some ⟨none, some ([1, 1, 1, 1] ++ Bytes.word 0)⟩
    network := .small }

theorem Job.outputSettled_purchase : ∃ program, purchase.compile = .ok program ∧
    ∃ others, program.reading = others ++ [(.forward, Frame.sendNative)] := by
  obtain ⟨program, hprogram⟩ : ∃ program, purchase.compile = .ok program :=
    exists_eq_ok_of_isSome (by decide +kernel)
  obtain ⟨hsettled, _⟩ := outputSettled hprogram
  obtain ⟨others, hothers, _⟩ := hsettled.forwards (by decide) (by decide)
  exact ⟨program, hprogram, others, hothers⟩

end SwapCompiler
