import SwapCompiler.Proofs.Built.Program
import SwapCompiler.Proofs.Connected

/-!
# The plan of a trade whose fills have their adapters

Where there is one adapter for each fill, no lookup of an adapter fails.  So a plan
is not only what the compiler has settled, if it has: it can be said beforehand.

* `Job.adapters_found` looks up the adapters of any hop of the layout.
* `Job.settled` is the plan, and `Plan.of_eq` says that the compiler makes this plan,
  unless the output has to be unwrapped and there is no calldata to do it with.
-/

namespace SwapCompiler

/-- A list on which every step of a walk succeeds is walked to its end. -/
theorem exists_mapM_eq_ok {ε α β : Type} {step : α → Except ε β} {list : List α}
    (h : ∀ element ∈ list, ∃ result, step element = .ok result) :
    ∃ results, list.mapM step = .ok results := by
  induction list with
  | nil => exact ⟨[], rfl⟩
  | cons element rest ih =>
      obtain ⟨first, hfirst⟩ := h element List.mem_cons_self
      obtain ⟨others, hothers⟩ := ih fun other hmem => h other (List.mem_cons_of_mem _ hmem)
      refine ⟨first :: others, ?_⟩
      rw [List.mapM_cons]
      exact bind_eq_ok_iff.2 ⟨first, hfirst, bind_eq_ok_iff.2 ⟨others, hothers, rfl⟩⟩

namespace Job

variable {job : Job}

/-- A fill of the layout has a number below the number of fills. -/
theorem index_lt_of_mem {route : PlacedRoute} (hroute : route ∈ job.layout.routes)
    {hop : PlacedHop} (hhop : hop ∈ route.hops) {placed : PlacedFill}
    (hplaced : placed ∈ hop.fills) : placed.index < job.trade.fills.length := by
  have hsite : (hop, placed) ∈ (Layout.of job.trade).sites :=
    Layout.mem_sites_iff.2 ⟨route, hroute, hhop, hplaced⟩
  have hindex := List.mem_map_of_mem (f := fun site => site.2.index) hsite
  rw [Layout.map_index_sites, List.mem_range, Layout.fillCount_eq] at hindex
  exact hindex

variable (hcount : job.adapters.length = job.trade.fills.length)

include hcount

/-- No adapter is missing. -/
theorem adapters_found {route : PlacedRoute} (hroute : route ∈ job.layout.routes)
    {hop : PlacedHop} (hhop : hop ∈ route.hops) :
    hop.adapters job.adapters = .ok (job.adaptersAt hop) := by
  obtain ⟨adapters, hadapters⟩ : ∃ adapters, hop.adapters job.adapters = .ok adapters := by
    refine exists_mapM_eq_ok fun placed hplaced => ?_
    have hindex := index_lt_of_mem hroute hhop hplaced
    rw [← hcount] at hindex
    exact ⟨job.adapters[placed.index], by simp [PlacedFill.adapter, hindex]⟩
  rw [hadapters, adaptersAt_eq hadapters]

theorem adaptersOf_found {hops : List PlacedHop}
    (h : ∀ hop ∈ hops, ∃ route ∈ job.layout.routes, hop ∈ route.hops) :
    ∃ adapters, job.adaptersOf hops = .ok adapters := by
  refine exists_mapM_eq_ok fun hop hmem => ?_
  obtain ⟨route, hroute, hhop⟩ := h hop hmem
  exact ⟨_, adapters_found hcount hroute hhop⟩

theorem adaptersOf_firstHops_found :
    ∃ adapters, job.adaptersOf job.layout.firstHops = .ok adapters := by
  refine adaptersOf_found hcount fun hop hmem => ?_
  obtain ⟨route, hroute, hhop⟩ := List.mem_filterMap.1 hmem
  exact ⟨route, hroute, List.mem_of_head? hhop⟩

theorem adaptersOf_lastHops_found :
    ∃ adapters, job.adaptersOf job.layout.lastHops = .ok adapters := by
  refine adaptersOf_found hcount fun hop hmem => ?_
  obtain ⟨route, hroute, hhop⟩ := List.mem_filterMap.1 hmem
  exact ⟨route, hroute, List.mem_of_getLast? hhop⟩

omit hcount

/-! ## What is settled -/

/-- The native source is wrapped in front of all routes: there is calldata for it, and
every exchange of every first hop wants the wrapped token. -/
def wrapsRoot (job : Job) : Bool :=
  job.trade.topology != .single && job.nativeSource && job.deposit?.isSome &&
    job.firstAdapters.all (·.wrapsNative)

/-- The native destination is unwrapped behind all routes: some exchange of a last hop
delivers the wrapped token. -/
def unwrapsRoot (job : Job) : Bool :=
  job.trade.topology != .single && job.nativeDestination && job.lastAdapters.any (·.wrapsNative)

/-- What the executor is left with behind the routes is sent on. -/
def forwards (job : Job) : Bool :=
  job.nativeDestination && job.lastAdapters.any fun adapter =>
    !adapter.paysRecipient || (job.trade.topology = .single && adapter.wrapsNative)

/-- The plan of a job whose fills have their adapters. -/
def settled (job : Job) : Plan :=
  { toJob := job
    rootWrap := job.wrapsRoot
    rootUnwrap := job.unwrapsRoot
    forwardNative := !job.unwrapsRoot && job.forwards }

theorem settled_settled (job : Job) : job.settled.Settled where
  rootWrap := rfl
  rootUnwrap := rfl
  forwardNative := (Bool.and_assoc _ _ _).symm

include hcount

theorem wrapsSource_eq : job.wrapsSource = .ok job.wrapsRoot := by
  obtain ⟨wraps, hwraps⟩ : ∃ wraps, job.wrapsSource = .ok wraps := by
    unfold wrapsSource
    split
    · exact ⟨false, rfl⟩
    · obtain ⟨adapters, hadapters⟩ := adaptersOf_firstHops_found hcount
      exact ⟨_, bind_eq_ok_iff.2 ⟨adapters, hadapters, rfl⟩⟩
  rw [hwraps, Plan.rootWrap_of_wrapsSource hwraps]
  rfl

theorem forwardsNative_eq : job.forwardsNative = .ok job.forwards := by
  obtain ⟨forwards, hforwards⟩ : ∃ forwards, job.forwardsNative = .ok forwards := by
    unfold forwardsNative
    split
    · exact ⟨false, rfl⟩
    · obtain ⟨adapters, hadapters⟩ := adaptersOf_lastHops_found hcount
      exact ⟨_, bind_eq_ok_iff.2 ⟨adapters, hadapters, rfl⟩⟩
  rw [hforwards, Plan.forwardNative_of_forwardsNative hforwards]
  rfl

/-- Only the withdraw calldata may be missing. -/
theorem unwrapsDestination_eq : job.unwrapsDestination =
    if job.unwrapsRoot && job.withdraw?.isNone then .error .withdrawMissing
    else .ok job.unwrapsRoot := by
  obtain ⟨adapters, hadapters⟩ := adaptersOf_lastHops_found hcount
  have hany : (adapters.any fun hop => hop.any (·.wrapsNative)) =
      job.lastAdapters.any (·.wrapsNative) := by
    rw [adaptersOf_eq hadapters, lastAdapters, List.any_flatMap, List.any_map]
    rfl
  unfold unwrapsDestination unwrapsRoot
  rw [hadapters]
  by_cases hsingle : job.trade.topology = .single
  · simp [hsingle]
  · cases hnative : job.nativeDestination with
    | false => simp
    | true =>
        simp only [bind, Except.bind, hany]
        cases hwraps : job.lastAdapters.any (·.wrapsNative) with
        | false => simp [hsingle]
        | true => cases hwithdraw : job.withdraw? <;> simp [hsingle, withdraw, hwithdraw]

end Job

theorem Plan.of_eq {job : Job} (hcount : job.adapters.length = job.trade.fills.length) :
    Plan.of job =
      if job.unwrapsRoot && job.withdraw?.isNone then .error .withdrawMissing
      else .ok job.settled := by
  have hadapters : job.layout.checkAdapters job.adapters.length = .ok () := by
    rw [Layout.checkAdapters, if_pos]
    rw [hcount, ← Layout.fillCount_eq]
    rfl
  unfold Plan.of
  rw [hadapters, Job.wrapsSource_eq hcount, Job.unwrapsDestination_eq hcount,
    Job.forwardsNative_eq hcount]
  unfold Job.settled
  cases job.unwrapsRoot with
  | false => rfl
  | true => cases job.withdraw? <;> rfl

/-- So a plan is made exactly if there is withdraw calldata where it is needed. -/
theorem Plan.of_eq_ok_iff {job : Job} {plan : Plan}
    (hcount : job.adapters.length = job.trade.fills.length) :
    Plan.of job = .ok plan ↔
      (job.unwrapsRoot = true → ∃ calldata, job.withdraw? = some calldata) ∧
        plan = job.settled := by
  rw [Plan.of_eq hcount]
  cases job.unwrapsRoot with
  | false => simp [eq_comm]
  | true => cases job.withdraw? <;> simp [eq_comm]

end SwapCompiler
