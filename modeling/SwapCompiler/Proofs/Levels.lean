import SwapCompiler.Proofs.Native.Output

/-!
# Levels of code

The code of a trade, the content of a share and the children of a branch are its
payloads.  A payload is homogeneous if it holds shares only or frames only, so that it
can be walked with one record format.

All payloads of a compiled trade are homogeneous but the levels of its routes.  A hop
with several fills that trades the whole trade's pair is not fanned out by a branch, and
so its shares stand on the level of its route, beside whatever frames are there.

* `Plan.Mixes` says of a route that this happens, in terms of the trade.
* `Program.mem_payloads` lists the payloads of a program.
* `Plan.ProgramBuilt.not_homogeneous_routeLevel` compares a route's level with its
  plan, hop by hop; `Job.mixtures_of_bytecode` puts all of it together.
-/

namespace SwapCompiler

namespace Instruction

/-- A share, as opposed to a frame or a branch, which is a frame too. -/
def isShare : Instruction → Bool
  | .share _ _ => true
  | .frame _ | .branch _ _ => false

end Instruction

/-- The code is made of shares only, or of frames only. -/
def Homogeneous (code : List Instruction) : Prop :=
  (∀ instruction ∈ code, instruction.isShare = true) ∨
    ∀ instruction ∈ code, instruction.isShare = false

mutual

/-- The payloads inside an instruction, at every depth. -/
def Instruction.payloads : Instruction → List (List Instruction)
  | .frame _ => []
  | .branch _ children => children :: innerPayloads children
  | .share _ content => content :: innerPayloads content

/-- The payloads inside some code. -/
def innerPayloads : List Instruction → List (List Instruction)
  | [] => []
  | instruction :: rest => instruction.payloads ++ innerPayloads rest

end

/-- All payloads of some code, which is one itself. -/
def payloads (code : List Instruction) : List (List Instruction) :=
  code :: innerPayloads code

/-- The payload that holds the hops of a route: the content of the route's share if it
has one, and otherwise that of the whole trade. -/
def Program.routeLevel (program : Program) (part : RoutePart) : List Instruction :=
  if part.share.isSome then part.route.code else program.content

namespace Plan

/-- The fills of a hop are shares on the level of their route: there are several, and
the hop trades the pair of the whole trade. -/
def spreads (plan : Plan) (hop : PlacedHop) : Bool :=
  plan.topology != .single && 1 < hop.fills.length &&
    (hop.hop.source = plan.trade.source && hop.hop.destination = plan.trade.destination)

/-- Native asset that a hop buys in both forms is unwrapped behind it. -/
def unwrapsBehind (plan : Plan) (hop : PlacedHop) : Bool :=
  plan.network.isNative hop.hop.destination && !hop.last &&
    (plan.adaptersAt hop).any (·.wrapsNative) && (plan.adaptersAt hop).any (!·.wrapsNative)

/-- A hop of the route spreads its fills over the route's level, and there is a frame
beside them: that of another hop, of an unwrap behind a hop, or the terminal frame; and
where the level is that of the whole trade, also the wrap or the unwrap around it. -/
def Mixes (plan : Plan) (route : PlacedRoute) : Prop :=
  (∃ hop ∈ route.hops, plan.spreads hop = true) ∧
    ((∃ hop ∈ route.hops, plan.spreads hop = false ∨ plan.unwrapsBehind hop = true) ∨
      (plan.forwardNative = true ∧ route.position + 1 = plan.trade.routes.length) ∨
      (plan.topology ≠ .parallel ∧ (plan.rootWrap = true ∨ plan.rootUnwrap = true)))

end Plan

/-! ## Shares and frames of a level -/

/-- A share stands on this level. -/
def hasShare (code : List Instruction) : Bool :=
  code.any (·.isShare)

/-- A frame stands on this level. -/
def hasFrame (code : List Instruction) : Bool :=
  code.any (!·.isShare)

section

variable {code first second : List Instruction}

theorem homogeneous_iff : Homogeneous code ↔ hasFrame code = false ∨ hasShare code = false := by
  simp [Homogeneous, hasFrame, hasShare]

theorem not_homogeneous_iff :
    ¬ Homogeneous code ↔ hasShare code = true ∧ hasFrame code = true := by
  rw [homogeneous_iff, not_or, Bool.not_eq_false, Bool.not_eq_false, and_comm]

@[simp] theorem hasShare_append :
    hasShare (first ++ second) = (hasShare first || hasShare second) :=
  List.any_append

@[simp] theorem hasFrame_append :
    hasFrame (first ++ second) = (hasFrame first || hasFrame second) :=
  List.any_append

theorem hasShare_flatMap {α : Type} (list : List α) (write : α → List Instruction) :
    hasShare (list.flatMap write) = list.any fun element => hasShare (write element) :=
  List.any_flatMap

theorem hasFrame_flatMap {α : Type} (list : List α) (write : α → List Instruction) :
    hasFrame (list.flatMap write) = list.any fun element => hasFrame (write element) :=
  List.any_flatMap

@[simp] theorem hasShare_frames (frames : List Frame) :
    hasShare (frames.map .frame) = false := by
  simp [hasShare, Instruction.isShare]

@[simp] theorem hasFrame_option (frame : Option Frame) :
    hasFrame (frame.toList.map .frame) = frame.isSome := by
  cases frame <;> rfl

theorem hasShare_shared (share : Option Share) :
    hasShare (shared share code) = (share.isSome || hasShare code) := by
  cases share <;> rfl

theorem hasFrame_shared (share : Option Share) :
    hasFrame (shared share code) = (!share.isSome && hasFrame code) := by
  cases share <;> rfl

theorem hasShare_branched (branch : Option Branch) :
    hasShare (branched branch code) = (!branch.isSome && hasShare code) := by
  cases branch <;> rfl

theorem hasFrame_branched (branch : Option Branch) :
    hasFrame (branched branch code) = (branch.isSome || hasFrame code) := by
  cases branch <;> rfl

@[simp] theorem Leg.hasShare_code (leg : Leg) : hasShare leg.code = false :=
  hasShare_frames leg.frames

/-- Every leg has its call. -/
@[simp] theorem Leg.hasFrame_code (leg : Leg) : hasFrame leg.code = true := by
  refine List.any_eq_true.2 ⟨.frame leg.call, ?_, rfl⟩
  simp [Leg.code, Leg.frames]

theorem any_eq_of_forall {α : Type} {f : α → Bool} {list : List α} {value : Bool}
    (hne : list ≠ []) (h : ∀ element ∈ list, f element = value) : list.any f = value := by
  obtain ⟨element, hmem⟩ := List.exists_mem_of_ne_nil _ hne
  cases value with
  | true => exact List.any_eq_true.2 ⟨element, hmem, h element hmem⟩
  | false => exact List.any_eq_false.2 fun other hother => by simp [h other hother]

end

/-! ## The payloads of a program -/

section

variable {payload code first second : List Instruction}

@[simp] theorem innerPayloads_append :
    innerPayloads (first ++ second) = innerPayloads first ++ innerPayloads second := by
  induction first with
  | nil => simp [innerPayloads]
  | cons instruction rest ih => simp [innerPayloads, ih]

theorem innerPayloads_flatMap {α : Type} (list : List α) (write : α → List Instruction) :
    innerPayloads (list.flatMap write) =
      list.flatMap fun element => innerPayloads (write element) := by
  induction list with
  | nil => simp [innerPayloads]
  | cons element rest ih => simp [ih]

@[simp] theorem innerPayloads_frames (frames : List Frame) :
    innerPayloads (frames.map .frame) = [] := by
  induction frames with
  | nil => simp [innerPayloads]
  | cons frame rest ih => simp [innerPayloads, Instruction.payloads, ih]

theorem mem_innerPayloads_shared {share : Option Share} :
    payload ∈ innerPayloads (shared share code) ↔
      (share.isSome = true ∧ payload = code) ∨ payload ∈ innerPayloads code := by
  cases share <;> simp [shared, innerPayloads, Instruction.payloads]

theorem mem_innerPayloads_branched {branch : Option Branch} :
    payload ∈ innerPayloads (branched branch code) ↔
      (branch.isSome = true ∧ payload = code) ∨ payload ∈ innerPayloads code := by
  cases branch <;> simp [branched, innerPayloads, Instruction.payloads]

theorem HopCode.mem_innerPayloads {hop : HopCode} :
    payload ∈ innerPayloads hop.code ↔
      (hop.branch.isSome = true ∧ payload = hop.children) ∨
        ∃ part ∈ hop.parts, part.share.isSome = true ∧ payload = part.leg.code := by
  rw [HopCode.code, innerPayloads_append, innerPayloads_frames, List.append_nil,
    mem_innerPayloads_branched, HopCode.children, innerPayloads_flatMap, List.mem_flatMap]
  simp only [Part.code, mem_innerPayloads_shared, Leg.code, innerPayloads_frames,
    List.not_mem_nil, or_false]

theorem RouteCode.mem_innerPayloads {route : RouteCode} :
    payload ∈ innerPayloads route.code ↔
      ∃ hop ∈ route.hops, payload ∈ innerPayloads hop.code := by
  rw [RouteCode.code, innerPayloads_append, innerPayloads_frames, List.append_nil,
    innerPayloads_flatMap, List.mem_flatMap]

/-- The payloads of a program are its code, what its share holds, what its branch
holds, and those inside its routes. -/
theorem Program.mem_payloads {program : Program} :
    payload ∈ payloads program.code ↔
      payload = program.code ∨ (program.share.isSome = true ∧ payload = program.content) ∨
        (program.branch.isSome = true ∧ payload = routesCode program.routes) ∨
        ∃ part ∈ program.routes, (part.share.isSome = true ∧ payload = part.route.code) ∨
          payload ∈ innerPayloads part.route.code := by
  have hroutes : payload ∈ innerPayloads (routesCode program.routes) ↔
      ∃ part ∈ program.routes, (part.share.isSome = true ∧ payload = part.route.code) ∨
        payload ∈ innerPayloads part.route.code := by
    rw [routesCode, innerPayloads_flatMap, List.mem_flatMap]
    simp only [RoutePart.code, mem_innerPayloads_shared]
  rw [payloads, List.mem_cons, Program.code, mem_innerPayloads_shared, Program.content]
  simp only [innerPayloads_append, innerPayloads_frames, List.nil_append, List.append_nil,
    mem_innerPayloads_branched, hroutes]

end

namespace Plan

variable {plan : Plan} {route : PlacedRoute} {hop : PlacedHop} {held : NativeForm}
  {adapters : List Adapter} {code : HopCode} {program : Program} {part : RoutePart}

/-! ## The level of a hop -/

/-- The fills of a hop stand on the level of its route exactly if they are shares that no
branch holds. -/
theorem spreads_eq (plan : Plan) (hop : PlacedHop) :
    plan.spreads hop = (plan.sharesFills hop && !plan.branches hop) := by
  unfold spreads sharesFills branches
  cases plan.topology != .single <;> cases decide (1 < hop.fills.length) <;> simp

/-- The parts of a hop are shares, or all of them are bare legs. -/
theorem HopBuilt.level_children (h : plan.HopBuilt route hop held adapters code)
    (hfills : hop.fills ≠ []) :
    hasShare code.children = plan.sharesFills hop ∧
      hasFrame code.children = !plan.sharesFills hop := by
  have hparts : code.parts ≠ [] := by
    intro hnil
    refine hfills (List.eq_nil_of_length_eq_zero ?_)
    rw [← h.lengths.2, hnil]
    rfl
  have hshares := h.packed.shares
  constructor
  · rw [HopCode.children, hasShare_flatMap]
    refine any_eq_of_forall hparts fun part hpart => ?_
    rw [Part.code, hasShare_shared, hshares part hpart, Leg.hasShare_code, Bool.or_false]
  · rw [HopCode.children, hasFrame_flatMap]
    refine any_eq_of_forall hparts fun part hpart => ?_
    rw [Part.code, hasFrame_shared, hshares part hpart, Leg.hasFrame_code, Bool.and_true]

theorem HopBuilt.level_code (h : plan.HopBuilt route hop held adapters code)
    (hfills : hop.fills ≠ []) :
    hasShare code.code = plan.spreads hop ∧
      hasFrame code.code = (!plan.spreads hop || plan.unwrapsBehind hop) := by
  obtain ⟨hshare, hframe⟩ := h.level_children hfills
  have hunwrap : code.unwrap.isSome = plan.unwrapsBehind hop := by
    rw [isSome_of_onlyIf h.unwrap, unwrapsBehind, Job.adaptersAt_eq h.found]
  rw [HopCode.code, hasShare_append, hasFrame_append, hasShare_branched, hasFrame_branched,
    hasShare_frames, hasFrame_option, hshare, hframe, hunwrap, h.packed.branch, spreads_eq]
  cases plan.sharesFills hop <;> cases plan.branches hop <;> simp

/-! ## The level of a route -/

theorem RouteBuilt.level_code (h : plan.RouteBuilt route part)
    (hconnected : route.Connected plan.trade) :
    hasShare part.route.code = route.hops.any plan.spreads ∧
      hasFrame part.route.code =
        ((route.hops.any fun hop => !plan.spreads hop || plan.unwrapsBehind hop) ||
          (plan.forwardNative && route.position + 1 = plan.trade.routes.length)) := by
  have hlevels : List.Forall₂ (fun code hop => hasShare code.code = plan.spreads hop ∧
      hasFrame code.code = (!plan.spreads hop || plan.unwrapsBehind hop))
      part.route.hops route.hops := by
    refine forall₂_of_getElem? (length_hops h.hops) fun i code hop hcode hhop => ?_
    obtain ⟨adapters, hbuilt⟩ := hopBuilt_of_hops h.hops hhop hcode
    exact hbuilt.level_code (hconnected.fills_ne_nil hhop)
  have hforward := isSome_of_onlyIf h.forward
  rw [RouteCode.code, hasShare_append, hasFrame_append, hasShare_flatMap, hasFrame_flatMap,
    hasShare_frames, hasFrame_option, hforward, Bool.or_false,
    any_eq_of_forall₂ (hlevels.imp fun _ _ hlevel => hlevel.1),
    any_eq_of_forall₂ (hlevels.imp fun _ _ hlevel => hlevel.2)]
  exact ⟨rfl, rfl⟩

theorem mixes_iff : plan.Mixes route ↔ route.hops.any plan.spreads = true ∧
    ((route.hops.any fun hop => !plan.spreads hop || plan.unwrapsBehind hop) ||
      (plan.forwardNative && route.position + 1 = plan.trade.routes.length) ||
      (plan.topology != .parallel && (plan.rootWrap || plan.rootUnwrap))) = true := by
  simp only [Mixes, List.any_eq_true, Bool.or_eq_true, Bool.and_eq_true, Bool.not_eq_true',
    decide_eq_true_eq, bne_iff_ne, or_assoc]

/-- Only parallel trades have more than one route. -/
theorem ProgramBuilt.routes_eq_of_not_parallel (h : plan.ProgramBuilt program)
    (htopology : plan.topology ≠ .parallel) (hpart : part ∈ program.routes) :
    program.routes = [part] := by
  have hone : plan.trade.routes.length = 1 := by
    have htrade : plan.trade.topology ≠ .parallel := htopology
    unfold Trade.topology at htrade
    split at htrade
    · next route hroutes => rw [hroutes]; rfl
    · exact absurd rfl htrade
  have hlength : program.routes.length = 1 := by
    rw [← h.routes.length_eq, ← hone]
    exact length_placeRoutes 0 0 plan.trade.routes
  obtain ⟨only, honly⟩ := List.length_eq_one_iff.1 hlength
  rw [honly, List.mem_singleton] at hpart
  rw [honly, hpart]

/-- The level of a route is a mixture exactly if the plan says so. -/
theorem ProgramBuilt.not_homogeneous_routeLevel (h : plan.ProgramBuilt program)
    (hconnected : plan.trade.Connected) {r : Nat} (hroute : plan.layout.routes[r]? = some route)
    (hpart : program.routes[r]? = some part) :
    ¬ Homogeneous (program.routeLevel part) ↔ plan.Mixes route := by
  have hbuilt := rel_of_forall₂ h.routes hroute hpart
  obtain ⟨hshare, hframe⟩ := hbuilt.level_code (hconnected.placed (List.mem_of_getElem? hroute))
  have hpresent := hbuilt.packed.share
  rw [not_homogeneous_iff, mixes_iff, Program.routeLevel, hpresent]
  by_cases htopology : plan.topology = .parallel
  · rw [if_pos (decide_eq_true htopology), hshare, hframe]
    simp [htopology]
  · have hnone : part.share = none := by
      rw [← Option.not_isSome_iff_eq_none, hpresent]
      simpa using htopology
    have hbranch : program.branch = none :=
      eq_none_of_onlyIf h.branch (by simp [htopology])
    have hroutes := h.routes_eq_of_not_parallel htopology (List.mem_of_getElem? hpart)
    have hcontent : program.content = program.wrap.toList.map .frame ++ part.route.code ++
        program.unwrap.toList.map .frame ++ program.forward.toList.map .frame := by
      rw [Program.content, hroutes, hbranch]
      simp [branched, routesCode, RoutePart.code, shared, hnone]
    rw [if_neg (by simpa using htopology), hcontent]
    simp only [hasShare_append, hasFrame_append, hasShare_frames, hasFrame_option, hshare, hframe,
      isSome_of_onlyIf h.wrap, isSome_of_onlyIf h.unwrap, isSome_of_onlyIf h.forward]
    have hwhole : (plan.topology != .parallel) = true := by simpa using htopology
    rw [hwhole, Bool.false_or, Bool.or_false, Bool.or_false]
    refine and_congr_right fun _ => ?_
    cases plan.rootWrap <;> cases plan.rootUnwrap <;> simp

/-! ## All payloads -/

theorem ProgramBuilt.routeLevel_mem (hpart : part ∈ program.routes) :
    program.routeLevel part ∈ payloads program.code := by
  rw [Program.mem_payloads, Program.routeLevel]
  split
  · next hshare => exact .inr (.inr (.inr ⟨part, hpart, .inl ⟨hshare, rfl⟩⟩))
  · cases hshare : program.share with
    | some share => exact .inr (.inl ⟨rfl, rfl⟩)
    | none =>
        left
        rw [Program.code, hshare]
        rfl

/-- Parallel routes stand side by side as shares. -/
theorem ProgramBuilt.hasFrame_routesCode (h : plan.ProgramBuilt program)
    (htopology : plan.topology = .parallel) : hasFrame (routesCode program.routes) = false := by
  rw [routesCode, hasFrame_flatMap, List.any_eq_false]
  intro part hpart
  obtain ⟨route, _, hbuilt⟩ := exists_mem_of_forall₂ h.routes hpart
  rw [RoutePart.code, hasFrame_shared, hbuilt.packed.share, htopology]
  simp

theorem ProgramBuilt.content_level (h : plan.ProgramBuilt program)
    (hconnected : plan.trade.Connected) :
    Homogeneous program.content ∨
      ∃ part ∈ program.routes, program.content = program.routeLevel part := by
  have hbranch := isSome_of_onlyIf h.branch
  have hwrap := isSome_of_onlyIf h.wrap
  have hunwrap := isSome_of_onlyIf h.unwrap
  have hforward := isSome_of_onlyIf h.forward
  by_cases htopology : plan.topology = .parallel
  · left
    rw [homogeneous_iff, Program.content]
    simp only [hasShare_append, hasFrame_append, hasShare_frames, hasFrame_option,
      hasShare_branched, hasFrame_branched, hbranch, hwrap, hunwrap, hforward,
      h.hasFrame_routesCode htopology]
    -- what is wrapped or unwrapped as a whole has a branch around its routes
    unfold rootNative
    rw [htopology]
    cases plan.rootWrap <;> cases plan.rootUnwrap <;> simp
  · right
    obtain ⟨part, hpart⟩ := List.exists_mem_of_ne_nil _ (h.routes_ne_nil hconnected)
    obtain ⟨route, _, hbuilt⟩ := exists_mem_of_forall₂ h.routes hpart
    refine ⟨part, hpart, ?_⟩
    rw [Program.routeLevel, hbuilt.packed.share, if_neg (by simpa using htopology)]

theorem ProgramBuilt.homogeneous_inner (h : plan.ProgramBuilt program)
    (hconnected : plan.trade.Connected) (hpart : part ∈ program.routes)
    {payload : List Instruction} (hmem : payload ∈ innerPayloads part.route.code) :
    Homogeneous payload := by
  obtain ⟨route, hroute, hbuilt⟩ := exists_mem_of_forall₂ h.routes hpart
  obtain ⟨code, hcode, hmem⟩ := RouteCode.mem_innerPayloads.1 hmem
  obtain ⟨hop, hhop, held, adapters, hhopBuilt⟩ :=
    exists_mem_of_forall₂ (forall₂_hopBuilt hbuilt.hops) hcode
  obtain ⟨i, hi⟩ := List.mem_iff_getElem?.1 hhop
  rw [homogeneous_iff]
  rcases HopCode.mem_innerPayloads.1 hmem with ⟨hbranch, hpayload⟩ | ⟨leg, _, _, hpayload⟩
  -- a hop that a branch fans out has shares in it
  · left
    rw [hpayload, (hhopBuilt.level_children ((hconnected.placed hroute).fills_ne_nil hi)).2]
    rw [hhopBuilt.packed.branch, branches, Bool.and_eq_true, Bool.and_comm] at hbranch
    rw [sharesFills, hbranch.1]
    rfl
  · right
    rw [hpayload, Leg.hasShare_code]

theorem ProgramBuilt.homogeneous_or_routeLevel (h : plan.ProgramBuilt program)
    (hconnected : plan.trade.Connected) {payload : List Instruction}
    (hmem : payload ∈ payloads program.code) :
    Homogeneous payload ∨ ∃ part ∈ program.routes, payload = program.routeLevel part := by
  rcases Program.mem_payloads.1 hmem with hwhole | ⟨_, hcontent⟩ | ⟨hbranch, hroutes⟩ |
    ⟨part, hpart, ⟨hshare, hroute⟩ | hinner⟩
  · rw [hwhole, Program.code]
    cases program.share with
    | none => exact h.content_level hconnected
    | some share => exact .inl (homogeneous_iff.2 (.inl rfl))
  · rw [hcontent]
    exact h.content_level hconnected
  · left
    rw [isSome_of_onlyIf h.branch, Bool.and_eq_true, decide_eq_true_eq] at hbranch
    rw [hroutes, homogeneous_iff]
    exact .inl (h.hasFrame_routesCode hbranch.1)
  · right
    refine ⟨part, hpart, ?_⟩
    rw [Program.routeLevel, if_pos hshare, hroute]
  · left
    exact h.homogeneous_inner hconnected hpart hinner

end Plan

/-- Bytecode is read back as a program whose payloads are homogeneous, but for the levels
of those routes in which a hop spreads its fills beside a frame. -/
theorem Job.mixtures_of_bytecode {job : Job} {data : Bytes} (h : job.bytecode = .ok data) :
    ∃ (plan : Plan) (program : Program), Plan.of job = .ok plan ∧
      readEnvelope plan.shape.reader data = some program ∧
      (∀ payload ∈ payloads program.code, ¬ Homogeneous payload ↔
        ∃ (r : Nat) (route : PlacedRoute) (part : RoutePart), job.layout.routes[r]? = some route ∧
          program.routes[r]? = some part ∧ plan.Mixes route ∧
          payload = program.routeLevel part) ∧
      ∀ part ∈ program.routes, program.routeLevel part ∈ payloads program.code := by
  obtain ⟨program, hcompile, rfl⟩ := map_eq_ok_iff.1 h
  obtain ⟨hcheck, plan, hplan, hbuilt⟩ := Job.compile_eq_ok_iff.1 hcompile
  obtain ⟨rfl, _⟩ := Plan.settled_of_eq_ok hplan
  have hconnected := (Trade.connected_of_check hcheck).1
  refine ⟨plan, program, hplan, readEnvelope_envelope hbuilt.reads, fun payload hmem => ?_,
    fun part => Plan.ProgramBuilt.routeLevel_mem⟩
  constructor
  · intro hmixture
    rcases hbuilt.homogeneous_or_routeLevel hconnected hmem with hall | ⟨part, hpart, hlevel⟩
    · exact absurd hall hmixture
    obtain ⟨r, hr⟩ := List.mem_iff_getElem?.1 hpart
    obtain ⟨route, hroute⟩ := exists_getElem?_of_length_eq hbuilt.routes.length_eq.symm hr
    rw [hlevel] at hmixture
    exact ⟨r, route, part, hroute, hr,
      (hbuilt.not_homogeneous_routeLevel hconnected hroute hr).1 hmixture, hlevel⟩
  · rintro ⟨r, route, part, hroute, hpart, hmixes, hlevel⟩
    rw [hlevel]
    exact (hbuilt.not_homogeneous_routeLevel hconnected hroute hpart).2 hmixes

/-- Native asset is bought along two routes; the only hop of the second is split between
two exchanges that leave it with the executor. -/
def Job.splitPurchase : Job :=
  { trade :=
      { source := .ofNat 5
        destination := .ofNat 3
        sourceAmount := 1000
        destinationAmount := 5
        routes :=
          [⟨50.0, [⟨.ofNat 5, .ofNat 3, [⟨"first", 100.0, 500, 1⟩]⟩]⟩,
            ⟨50.0, [⟨.ofNat 5, .ofNat 3, [⟨"second", 50.0, 250, 1⟩, ⟨"third", 50.0, 251, 1⟩]⟩]⟩] }
    adapters := [.small 11 500 false false, .small 12 250 false false, .small 13 251 false false]
    wrapCalls := none
    network := .small }

theorem Job.mixtures_of_bytecode_splitPurchase :
    ∃ (data : Bytes) (plan : Plan) (program : Program), splitPurchase.bytecode = .ok data ∧
      Plan.of splitPurchase = .ok plan ∧ readEnvelope plan.shape.reader data = some program ∧
      ∀ payload ∈ payloads program.code, ¬ Homogeneous payload ↔
        ∃ (r : Nat) (route : PlacedRoute) (part : RoutePart),
          splitPurchase.layout.routes[r]? = some route ∧ program.routes[r]? = some part ∧
            plan.Mixes route ∧ payload = program.routeLevel part := by
  obtain ⟨data, hdata⟩ : ∃ data, splitPurchase.bytecode = .ok data :=
    exists_eq_ok_of_isSome (by decide +kernel)
  obtain ⟨plan, program, hplan, hread, hmixtures, _⟩ := mixtures_of_bytecode hdata
  exact ⟨data, plan, program, hdata, hplan, hread, hmixtures⟩

/-- Its second route is a mixture of two shares and the terminal frame. -/
theorem Job.exists_mixture_splitPurchase : ∃ program, splitPurchase.compile = .ok program ∧
    ∃ payload ∈ payloads program.code, ¬ Homogeneous payload := by
  have hmixture : splitPurchase.compile.toOption.any (fun program =>
      (payloads program.code).any fun payload => hasShare payload && hasFrame payload) = true := by
    decide +kernel
  obtain ⟨program, hprogram, hpayloads⟩ := (Option.any_eq_true _ _).1 hmixture
  obtain ⟨payload, hmem, hboth⟩ := List.any_eq_true.1 hpayloads
  refine ⟨program, eq_ok_of_toOption hprogram, payload, hmem, ?_⟩
  rw [not_homogeneous_iff, ← Bool.and_eq_true]
  exact hboth

end SwapCompiler
