import SwapCompiler.Compile.Program
import SwapCompiler.Proofs.Built.Hop

/-!
# What built programs are made of

The level above the hops: routes, what surrounds them, and what the plan has
settled for the trade as a whole.  `Job.compile_eq_ok_iff` puts all of it
together; it is where every statement about compiled trades starts.
-/

namespace SwapCompiler

namespace Job

/-- The adapters of all first hops, in route order. -/
def firstAdapters (job : Job) : List Adapter :=
  job.layout.firstHops.flatMap job.adaptersAt

/-- The adapters of all last hops, in route order. -/
def lastAdapters (job : Job) : List Adapter :=
  job.layout.lastHops.flatMap job.adaptersAt

theorem adaptersOf_eq {job : Job} {hops : List PlacedHop} {adapters : List (List Adapter)}
    (h : job.adaptersOf hops = .ok adapters) : adapters = hops.map job.adaptersAt := by
  have hfound := mapM_eq_ok_iff.1 h
  clear h
  induction hfound with
  | nil => rfl
  | cons hhead _ ih => rw [List.map_cons, ← ih, adaptersAt_eq hhead]

end Job

namespace Plan

/-- The decisions of a plan, said of the trade's first and last hops. -/
structure Settled (plan : Plan) : Prop where
  rootWrap : plan.rootWrap =
    (plan.topology != .single && plan.nativeSource && plan.deposit?.isSome &&
      plan.firstAdapters.all (·.wrapsNative))
  rootUnwrap : plan.rootUnwrap =
    (plan.topology != .single && plan.nativeDestination &&
      plan.lastAdapters.any (·.wrapsNative))
  forwardNative : plan.forwardNative =
    (!plan.rootUnwrap && plan.nativeDestination && plan.lastAdapters.any fun adapter =>
      !adapter.paysRecipient || (plan.topology = .single && adapter.wrapsNative))

/-- The code of a route. -/
structure RouteBuilt (plan : Plan) (placed : PlacedRoute) (part : RoutePart) : Prop where
  hops : plan.hops placed plan.initialForm placed.hops = .ok part.route.hops
  forward :
    onlyIf (plan.forwardNative && placed.position + 1 = plan.trade.routes.length)
      Frame.sendNative.checked = .ok part.route.forward
  share :
    onlyIf (plan.topology = .parallel)
      (Share.of placed.route.percent plan.routeSource (codeBytes part.route.code)) =
        .ok part.share

/-- The code of a trade. -/
structure ProgramBuilt (plan : Plan) (program : Program) : Prop where
  routes : List.Forall₂ plan.RouteBuilt plan.layout.routes program.routes
  branch :
    onlyIf (plan.topology = .parallel && plan.rootNative)
      (plan.rootBranch (codeBytes (routesCode program.routes))) = .ok program.branch
  wrap : onlyIf plan.rootWrap plan.wrapFrame = .ok program.wrap
  unwrap : onlyIf plan.rootUnwrap (plan.unwrapFrame Frame.unwrapFlag) = .ok program.unwrap
  forward : onlyIf plan.rootUnwrap Frame.sendNative.checked = .ok program.forward
  share :
    onlyIf (plan.topology = .sequential || (plan.topology = .parallel && plan.rootNative))
      (Share.of 100.0 .whole (codeBytes program.content)) = .ok program.share

section

variable {job : Job} {plan : Plan}

theorem rootWrap_of_wrapsSource {wraps : Bool} (h : job.wrapsSource = .ok wraps) :
    wraps = (job.trade.topology != .single && job.nativeSource && job.deposit?.isSome &&
      job.firstAdapters.all (·.wrapsNative)) := by
  unfold Job.wrapsSource at h
  split at h
  · next hnone =>
      obtain rfl := Except.ok.inj h
      simp only [Bool.or_eq_true, decide_eq_true_eq, Bool.not_eq_true',
        Option.isNone_iff_eq_none] at hnone
      rcases hnone with (htopology | hnative) | hdeposit
      · simp [htopology]
      · simp [hnative]
      · simp [hdeposit]
  · next hall =>
      obtain ⟨adapters, hadapters, h⟩ := bind_eq_ok_iff.1 h
      obtain rfl := Except.ok.inj h
      rw [Job.adaptersOf_eq hadapters, Job.firstAdapters, List.all_flatMap, List.all_map]
      simp only [Bool.or_eq_true, decide_eq_true_eq, Bool.not_eq_true', not_or,
        Bool.not_eq_false, Option.isNone_iff_eq_none] at hall
      obtain ⟨⟨htopology, hnative⟩, hdeposit⟩ := hall
      simp [htopology, hnative, Option.isSome_iff_ne_none.2 hdeposit, Function.comp_def]

theorem rootUnwrap_of_unwrapsDestination {unwraps : Bool}
    (h : job.unwrapsDestination = .ok unwraps) :
    unwraps = (job.trade.topology != .single && job.nativeDestination &&
      job.lastAdapters.any (·.wrapsNative)) := by
  unfold Job.unwrapsDestination at h
  split at h
  · next hnone =>
      obtain rfl := Except.ok.inj h
      simp only [Bool.or_eq_true, decide_eq_true_eq, Bool.not_eq_true'] at hnone
      rcases hnone with htopology | hnative
      · simp [htopology]
      · simp [hnative]
  · next hall =>
      obtain ⟨adapters, hadapters, h⟩ := bind_eq_ok_iff.1 h
      rw [Job.adaptersOf_eq hadapters] at h
      simp only [Bool.or_eq_true, decide_eq_true_eq, Bool.not_eq_true', not_or,
        Bool.not_eq_false] at hall
      obtain ⟨htopology, hnative⟩ := hall
      rw [Job.lastAdapters, List.any_flatMap]
      split at h
      · next hany =>
          obtain ⟨_, _, h⟩ := bind_eq_ok_iff.1 h
          obtain rfl := Except.ok.inj h
          rw [List.any_map] at hany
          simpa [htopology, hnative] using hany
      · next hany =>
          obtain rfl := Except.ok.inj h
          rw [List.any_map] at hany
          simpa [htopology, hnative] using hany

theorem forwardNative_of_forwardsNative {forwards : Bool}
    (h : job.forwardsNative = .ok forwards) :
    forwards = (job.nativeDestination && job.lastAdapters.any fun adapter =>
      !adapter.paysRecipient || (job.trade.topology = .single && adapter.wrapsNative)) := by
  unfold Job.forwardsNative at h
  split at h
  · next hnative =>
      obtain rfl := Except.ok.inj h
      simp only [Bool.not_eq_true'] at hnative
      simp [hnative]
  · next hnative =>
      obtain ⟨adapters, hadapters, h⟩ := bind_eq_ok_iff.1 h
      obtain rfl := Except.ok.inj h
      simp only [Bool.not_eq_true', Bool.not_eq_false] at hnative
      rw [Job.adaptersOf_eq hadapters, Job.lastAdapters, List.any_flatMap, List.any_map, hnative]
      rfl

/-- A plan that was made belongs to its job and has settled its decisions. -/
theorem settled_of_eq_ok (h : Plan.of job = .ok plan) : plan.toJob = job ∧ plan.Settled := by
  obtain ⟨_, _, h⟩ := bind_eq_ok_iff.1 h
  obtain ⟨wraps, hwraps, h⟩ := bind_eq_ok_iff.1 h
  obtain ⟨unwraps, hunwraps, h⟩ := bind_eq_ok_iff.1 h
  have hrootWrap := rootWrap_of_wrapsSource hwraps
  have hrootUnwrap := rootUnwrap_of_unwrapsDestination hunwraps
  cases unwraps with
  | true =>
      obtain rfl := Except.ok.inj h
      exact ⟨rfl, hrootWrap, hrootUnwrap, rfl⟩
  | false =>
      obtain ⟨forwards, hforwards, h⟩ := bind_eq_ok_iff.1 h
      obtain rfl := Except.ok.inj h
      exact ⟨rfl, hrootWrap, hrootUnwrap, forwardNative_of_forwardsNative hforwards⟩

end

section

variable {plan : Plan} {placed : PlacedRoute}

theorem routePart_eq_ok_iff {part : RoutePart} :
    plan.routePart placed = .ok part ↔ plan.RouteBuilt placed part := by
  constructor
  · intro h
    obtain ⟨code, hcode, h⟩ := bind_eq_ok_iff.1 h
    obtain ⟨share, hshare, h⟩ := bind_eq_ok_iff.1 h
    obtain ⟨hops, hhops, hcode⟩ := bind_eq_ok_iff.1 hcode
    obtain ⟨forward, hforward, hcode⟩ := bind_eq_ok_iff.1 hcode
    obtain rfl := Except.ok.inj h
    obtain rfl := Except.ok.inj hcode
    exact ⟨hhops, hforward, hshare⟩
  · intro h
    exact bind_eq_ok_iff.2 ⟨part.route,
      bind_eq_ok_iff.2 ⟨_, h.hops, bind_eq_ok_iff.2 ⟨_, h.forward, rfl⟩⟩,
      bind_eq_ok_iff.2 ⟨_, h.share, rfl⟩⟩

theorem rootBranch_eq_ok_iff {children : Bytes} {branch : Branch} :
    plan.rootBranch children = .ok branch ↔
      Branch.of plan.network.executor plan.rootBranchFlag (some plan.network.wrapped) children =
          .ok branch ∧ (branch.frame children).Fits :=
  Branch.bind_checked_eq_ok_iff

theorem routes_eq_ok_iff {parts : List RoutePart} :
    plan.routes = .ok parts ↔ List.Forall₂ plan.RouteBuilt plan.layout.routes parts := by
  simp only [routes, mapM_eq_ok_iff, routePart_eq_ok_iff]

theorem program_eq_ok_iff {program : Program} :
    plan.program = .ok program ↔ plan.ProgramBuilt program := by
  constructor
  · intro h
    obtain ⟨parts, hparts, h⟩ := bind_eq_ok_iff.1 h
    obtain ⟨branch, hbranch, h⟩ := bind_eq_ok_iff.1 h
    obtain ⟨wrap, hwrap, h⟩ := bind_eq_ok_iff.1 h
    obtain ⟨unwrap, hunwrap, h⟩ := bind_eq_ok_iff.1 h
    obtain ⟨forward, hforward, h⟩ := bind_eq_ok_iff.1 h
    obtain ⟨share, hshare, h⟩ := bind_eq_ok_iff.1 h
    obtain rfl := Except.ok.inj h
    exact ⟨routes_eq_ok_iff.1 hparts, hbranch, hwrap, hunwrap, hforward, hshare⟩
  · intro h
    refine bind_eq_ok_iff.2 ⟨_, routes_eq_ok_iff.2 h.routes, bind_eq_ok_iff.2 ⟨_, h.branch, ?_⟩⟩
    refine bind_eq_ok_iff.2 ⟨_, h.wrap, bind_eq_ok_iff.2 ⟨_, h.unwrap, ?_⟩⟩
    exact bind_eq_ok_iff.2 ⟨_, h.forward, bind_eq_ok_iff.2 ⟨_, h.share, rfl⟩⟩

end

end Plan

/-- A trade compiles to a program exactly if it is valid, can be planned, and
the program is the one that the plan builds. -/
theorem Job.compile_eq_ok_iff {job : Job} {program : Program} :
    job.compile = .ok program ↔
      job.check = .ok () ∧ ∃ plan, Plan.of job = .ok plan ∧ plan.ProgramBuilt program := by
  constructor
  · intro h
    obtain ⟨_, hcheck, h⟩ := bind_eq_ok_iff.1 h
    obtain ⟨plan, hplan, h⟩ := bind_eq_ok_iff.1 h
    exact ⟨hcheck, plan, hplan, Plan.program_eq_ok_iff.1 h⟩
  · rintro ⟨hcheck, plan, hplan, h⟩
    exact bind_eq_ok_iff.2 ⟨(), hcheck,
      bind_eq_ok_iff.2 ⟨plan, hplan, Plan.program_eq_ok_iff.2 h⟩⟩

end SwapCompiler
