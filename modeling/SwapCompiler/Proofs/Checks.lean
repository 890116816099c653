import SwapCompiler.Proofs.Causes
import SwapCompiler.Proofs.Placement

/-!
# What each check of a trade asks

One law for each check: it passes exactly if the part of the tree that it looks at is as it
should be.  A check numbers the routes and hops that it walks along, for the faults that it
may report; what it asks of them does not depend on the numbers.

`Trade.check_failsStructurally` says that no check fails for anything but a rule that the
trade breaks.
-/

namespace SwapCompiler

section

variable {α : Type}

/-- A check of numbered elements that asks the same of each, whatever its number. -/
theorem forM_zipIdx_eq_ok_iff {check : α × Nat → Except Fault Unit} {asked : α → Prop}
    (h : ∀ element i, check (element, i) = .ok () ↔ asked element) {list : List α} :
    list.zipIdx.forM check = .ok () ↔ ∀ element ∈ list, asked element := by
  rw [forM_eq_ok_iff]
  constructor
  · intro hall element hmem
    obtain ⟨i, hi⟩ := List.mem_iff_getElem?.1 hmem
    exact (h element i).1 (hall (element, i) (List.mk_mem_zipIdx_iff_getElem?.2 hi))
  · rintro hall ⟨element, i⟩ hmem
    exact (h element i).2 (hall element
      (List.mem_of_getElem? (List.mk_mem_zipIdx_iff_getElem?.1 hmem)))

/-- Two checks pass one after the other exactly if both pass. -/
theorem bind_check_eq_ok_iff {check next : Except Fault Unit} :
    (check >>= fun _ => next) = .ok () ↔ check = .ok () ∧ next = .ok () := by
  rw [bind_eq_ok_iff]
  exact ⟨fun ⟨_, hcheck, hnext⟩ => ⟨hcheck, hnext⟩, fun ⟨hcheck, hnext⟩ => ⟨(), hcheck, hnext⟩⟩

/-- A check that a list has elements, in front of another one. -/
theorem refuse_empty_eq_ok_iff {list : List α} {fault : Fault} {step : Except Fault Unit} :
    (if list.isEmpty then .error fault else step) = .ok () ↔ list ≠ [] ∧ step = .ok () := by
  cases list <;> simp

end

/-- The route leads from the one token to the other, each hop selling what the hop before it
bought. -/
structure Route.Leads (route : Route) (source destination : Address) : Prop where
  starts : ∀ hop ∈ route.hops.head?, hop.source = source
  ends : ∀ hop ∈ route.hops.getLast?, hop.destination = destination
  links : route.hops.IsChain fun hop next => hop.destination = next.source

namespace Trade

variable {trade : Trade} {level : PercentLevel} {percents : List Float}

/-- No percentage of a level is refused, and neither is their sum. -/
structure PercentsPass (percents : List Float) : Prop where
  each : ∀ percent ∈ percents, ¬ (percent ≤ 0.0 ∨ 100.0 + Share.tolerance < percent)
  sum : ¬ Share.tolerance < (percents.foldl (· + ·) 0.0 - 100.0).abs

theorem sumPercents_eq_ok_iff {total result : Float} :
    sumPercents level total percents = .ok result ↔
      (∀ percent ∈ percents, ¬ (percent ≤ 0.0 ∨ 100.0 + Share.tolerance < percent)) ∧
        percents.foldl (· + ·) total = result := by
  induction percents generalizing total with
  | nil => simp [sumPercents]
  | cons percent rest ih =>
      rw [sumPercents, List.forall_mem_cons, List.foldl_cons]
      simp only [Bool.or_eq_true, decide_eq_true_eq]
      split
      · next hrefused => simp only [reduceCtorEq, hrefused, not_true, false_and]
      · next haccepted => rw [ih, and_assoc, and_iff_right haccepted]

theorem checkPercents_eq_ok_iff :
    checkPercents level percents = .ok () ↔ PercentsPass percents := by
  unfold checkPercents
  rw [bind_eq_ok_iff]
  constructor
  · rintro ⟨total, htotal, hsum⟩
    obtain ⟨heach, rfl⟩ := sumPercents_eq_ok_iff.1 htotal
    split at hsum
    · exact nomatch hsum
    · next hclose => exact ⟨heach, hclose⟩
  · intro h
    exact ⟨_, sumPercents_eq_ok_iff.2 ⟨h.each, rfl⟩, if_neg h.sum⟩

theorem checkFills_eq_ok_iff {route position : Nat} {hop : Hop} :
    checkFills route position hop = .ok () ↔
      hop.fills ≠ [] ∧ PercentsPass (hop.fills.map (·.percent)) := by
  rw [checkFills, refuse_empty_eq_ok_iff, checkPercents_eq_ok_iff]

theorem checkRouteFills_eq_ok_iff {position : Nat} {route : Route} :
    checkRouteFills position route = .ok () ↔
      route.hops ≠ [] ∧
        ∀ hop ∈ route.hops, hop.fills ≠ [] ∧ PercentsPass (hop.fills.map (·.percent)) := by
  rw [checkRouteFills, refuse_empty_eq_ok_iff,
    forM_zipIdx_eq_ok_iff fun _ _ => checkFills_eq_ok_iff]

theorem checkShares_eq_ok_iff :
    trade.checkShares = .ok () ↔
      trade.routes ≠ [] ∧ PercentsPass (trade.routes.map (·.percent)) ∧
        ∀ route ∈ trade.routes, route.hops ≠ [] ∧
          ∀ hop ∈ route.hops, hop.fills ≠ [] ∧ PercentsPass (hop.fills.map (·.percent)) := by
  rw [checkShares, refuse_empty_eq_ok_iff, bind_check_eq_ok_iff, checkPercents_eq_ok_iff,
    forM_zipIdx_eq_ok_iff fun _ _ => checkRouteFills_eq_ok_iff]

/-- Links are in order exactly if they form a chain. -/
theorem checkLinks_eq_ok_iff {route position : Nat} {hops : List Hop} :
    checkLinks route position hops = .ok () ↔
      hops.IsChain fun hop next => hop.destination = next.source := by
  induction hops generalizing position with
  | nil => simp [checkLinks]
  | cons hop rest ih =>
      cases rest with
      | nil => simp [checkLinks]
      | cons next rest =>
          rw [checkLinks, List.isChain_cons_cons]
          split
          · next hlink => rw [ih, and_iff_right hlink]
          · next hbroken => simp [hbroken]

/-- A route without hops leads from anywhere to anywhere. -/
theorem checkRoutePath_eq_ok_iff {position : Nat} {route : Route} :
    checkRoutePath trade position route = .ok () ↔
      route.Leads trade.source trade.destination := by
  have hleads : route.Leads trade.source trade.destination ↔
      (∀ hop ∈ route.hops.head?, hop.source = trade.source) ∧
        (∀ hop ∈ route.hops.getLast?, hop.destination = trade.destination) ∧
          checkLinks position 0 route.hops = .ok () := by
    rw [checkLinks_eq_ok_iff]
    exact ⟨fun h => ⟨h.starts, h.ends, h.links⟩, fun ⟨hstarts, hends, hlinks⟩ =>
      ⟨hstarts, hends, hlinks⟩⟩
  rw [hleads]
  unfold checkRoutePath
  cases hhops : route.hops with
  | nil => simp [checkLinks]
  | cons first rest =>
      have hlast := List.getLast?_eq_some_getLast (List.cons_ne_nil first rest)
      simp only [List.head?_cons, hlast, Option.mem_def, Option.some.injEq, forall_eq']
      split
      · next hstart => simp [hstart]
      · next hstart =>
          split
          · next hend => simp [hend]
          · next hend => simp [not_not.1 hstart, not_not.1 hend]

theorem checkPaths_eq_ok_iff :
    trade.checkPaths = .ok () ↔
      ∀ route ∈ trade.routes, route.Leads trade.source trade.destination := by
  rw [checkPaths, forM_zipIdx_eq_ok_iff fun _ _ => checkRoutePath_eq_ok_iff]

theorem checkAmounts_eq_ok_iff :
    trade.checkAmounts = .ok () ↔
      trade.sourceAmount ≠ 0 ∧ ∀ fill ∈ trade.fills, fill.sourceAmount ≠ 0 := by
  unfold checkAmounts
  split
  · next hzero => simp [hzero]
  · next hnonzero =>
      split
      · next fill hfound =>
          have hfill : fill.sourceAmount = 0 := by simpa using List.find?_some hfound
          simp only [reduceCtorEq, false_iff]
          exact fun h => h.2 fill (List.mem_of_find?_eq_some hfound) hfill
      · next hnone =>
          have hall := List.find?_eq_none.1 hnone
          simpa [hnonzero] using hall

end Trade

theorem Layout.checkAdapters_eq_ok_iff {layout : Layout} {given : Nat} :
    layout.checkAdapters given = .ok () ↔ given = layout.fillCount := by
  unfold checkAdapters
  split <;> simp [*]

/-- A trade passes its check exactly if it passes every part of it. -/
theorem Trade.check_eq_ok_iff {trade : Trade} {adapterCount : Nat} :
    trade.check adapterCount = .ok () ↔
      trade.checkShares = .ok () ∧ trade.checkPaths = .ok () ∧ trade.checkAmounts = .ok () ∧
        adapterCount = trade.fills.length := by
  unfold check
  rw [bind_check_eq_ok_iff, bind_check_eq_ok_iff, bind_check_eq_ok_iff,
    Layout.checkAdapters_eq_ok_iff, Layout.fillCount_eq]

/-! ## What a check fails for -/

namespace Trade

/-- The step fails only for a rule that the trade breaks. -/
abbrev FailsStructurally {α : Type} (step : Except Fault α) : Prop :=
  FailsOnly (fun fault => fault.kind = .structural) step

theorem sumPercents_failsStructurally (level : PercentLevel) (total : Float)
    (percents : List Float) : FailsStructurally (sumPercents level total percents) := by
  induction percents generalizing total with
  | nil => exact .ok total
  | cons percent rest ih =>
      unfold sumPercents
      split
      · exact .error rfl
      · exact ih (total + percent)

theorem checkPercents_failsStructurally (level : PercentLevel) (percents : List Float) :
    FailsStructurally (checkPercents level percents) := by
  refine (sumPercents_failsStructurally level 0.0 percents).bind fun total _ => ?_
  split
  · exact .error rfl
  · exact .ok ()

theorem checkRouteFills_failsStructurally (position : Nat) (route : Route) :
    FailsStructurally (checkRouteFills position route) := by
  unfold checkRouteFills
  split
  · exact .error rfl
  · refine .forM fun place _ => ?_
    show FailsStructurally (checkFills position place.2 place.1)
    unfold checkFills
    split
    · exact .error rfl
    · exact checkPercents_failsStructurally _ _

theorem checkShares_failsStructurally (trade : Trade) : FailsStructurally trade.checkShares := by
  unfold checkShares
  split
  · exact .error rfl
  · exact (checkPercents_failsStructurally _ _).bind fun _ _ =>
      .forM fun place _ => checkRouteFills_failsStructurally place.2 place.1

theorem checkLinks_failsStructurally (route position : Nat) (hops : List Hop) :
    FailsStructurally (checkLinks route position hops) := by
  induction hops generalizing position with
  | nil => exact .ok ()
  | cons hop rest ih =>
      cases rest with
      | nil => exact .ok ()
      | cons next rest =>
          rw [checkLinks]
          split
          · exact ih (position + 1)
          · exact .error rfl

theorem checkPaths_failsStructurally (trade : Trade) : FailsStructurally trade.checkPaths := by
  refine .forM fun place _ => ?_
  show FailsStructurally (checkRoutePath trade place.2 place.1)
  unfold checkRoutePath
  split
  · split
    · exact .error rfl
    · split
      · exact .error rfl
      · exact checkLinks_failsStructurally _ _ _
  · exact .ok ()

theorem checkAmounts_failsStructurally (trade : Trade) : FailsStructurally trade.checkAmounts := by
  unfold checkAmounts
  split
  · exact .error rfl
  · split
    · exact .error rfl
    · exact .ok ()

theorem check_failsStructurally (trade : Trade) (adapterCount : Nat) :
    FailsStructurally (trade.check adapterCount) := by
  refine (checkShares_failsStructurally trade).bind fun _ _ => ?_
  refine (checkPaths_failsStructurally trade).bind fun _ _ => ?_
  refine (checkAmounts_failsStructurally trade).bind fun _ _ => ?_
  unfold Layout.checkAdapters
  split
  · exact .ok ()
  · exact .error rfl

end Trade

end SwapCompiler
