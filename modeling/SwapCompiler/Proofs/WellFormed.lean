import SwapCompiler.Proofs.Calls
import SwapCompiler.Proofs.Doubles

/-!
# Well-formed trades

`Trade.WellFormed` is the declarative side of the check of a trade: a full tree whose hops
lead from the trade's source to its destination, whose percentages make up a whole at every
level, in which nothing is sold for a zero amount, and which has an adapter for each fill.

`Trade.check_iff_wellFormed` says that the check accepts exactly these trades, as long as
percentages are finite doubles, and refuses all others for a structural reason.  The check
refuses a percentage that is out of range, which for a finite one is the same as accepting
one in range; this and the sum of a level are taken care of by `percentsPass_iff`.
-/

namespace SwapCompiler

namespace Trade

/-- Percentages that make up a whole.  Each is in range, and so is the double that comes out
when they are added from left to right, up to noise of one millionth. -/
structure MakeWhole (percents : List Float) : Prop where
  positive : ∀ percent ∈ percents, 0.0 < percent
  atMost : ∀ percent ∈ percents, percent ≤ 100.0 + 1e-6
  sum : (percents.foldl (· + ·) 0.0 - 100.0).abs ≤ 1e-6

/-- What the compiler can work on, with so many adapters. -/
structure WellFormed (trade : Trade) (adapterCount : Nat) : Prop extends Connected trade where
  routePercents : MakeWhole (trade.routes.map (·.percent))
  fillPercents : ∀ route ∈ trade.routes, ∀ hop ∈ route.hops,
    MakeWhole (hop.fills.map (·.percent))
  sourceAmount : trade.sourceAmount ≠ 0
  fillAmounts : ∀ fill ∈ trade.fills, fill.sourceAmount ≠ 0
  adapters : adapterCount = trade.fills.length

/-- No percentage in the tree is infinite or no number. -/
def FinitePercents (trade : Trade) : Prop :=
  ∀ route ∈ trade.routes, route.percent.isFinite = true ∧
    ∀ hop ∈ route.hops, ∀ fill ∈ hop.fills, fill.percent.isFinite = true

/-- Adding finite doubles to a number gives a number. -/
theorem isNaN_foldl_add {percents : List Float}
    (hfinite : ∀ percent ∈ percents, percent.isFinite = true) {total : Float}
    (htotal : total.isNaN = false) : (percents.foldl (· + ·) total).isNaN = false := by
  induction percents generalizing total with
  | nil => exact htotal
  | cons percent rest ih =>
      obtain ⟨hpercent, hrest⟩ := List.forall_mem_cons.1 hfinite
      exact ih hrest (Double.isNaN_add htotal hpercent)

/-- Finite percentages pass exactly if they make up a whole. -/
theorem percentsPass_iff {percents : List Float}
    (hfinite : ∀ percent ∈ percents, percent.isFinite = true) :
    PercentsPass percents ↔ MakeWhole percents := by
  have hzero : (0.0 : Float).isNaN = false := by decide +kernel
  have hlimit : (100.0 + 1e-6 : Float).isNaN = false := by decide +kernel
  have hnoise : (1e-6 : Float).isNaN = false := by decide +kernel
  have hwhole : (100.0 : Float).isFinite = true := by decide +kernel
  have heach : ∀ percent ∈ percents,
      (¬ (percent ≤ 0.0 ∨ 100.0 + Share.tolerance < percent) ↔
        0.0 < percent ∧ percent ≤ 100.0 + 1e-6) := by
    intro percent hmem
    have hpercent := Double.isNaN_of_isFinite (hfinite percent hmem)
    rw [not_or, Double.not_le_iff_lt hpercent hzero]
    exact and_congr_right fun _ => Double.not_lt_iff_le hlimit hpercent
  have hsum : ¬ Share.tolerance < (percents.foldl (· + ·) 0.0 - 100.0).abs ↔
      (percents.foldl (· + ·) 0.0 - 100.0).abs ≤ 1e-6 :=
    Double.not_lt_iff_le hnoise
      (Double.isNaN_abs (Double.isNaN_sub (isNaN_foldl_add hfinite hzero) hwhole))
  constructor
  · intro h
    exact
      { positive := fun percent hmem => ((heach percent hmem).1 (h.each percent hmem)).1
        atMost := fun percent hmem => ((heach percent hmem).1 (h.each percent hmem)).2
        sum := hsum.1 h.sum }
  · intro h
    exact
      { each := fun percent hmem =>
          (heach percent hmem).2 ⟨h.positive percent hmem, h.atMost percent hmem⟩
        sum := hsum.2 h.sum }

variable {trade : Trade}

/-- The checks of a trade, part by part, are the fields of a well-formed one. -/
theorem wellFormed_iff (hfinite : trade.FinitePercents) {adapterCount : Nat} :
    trade.WellFormed adapterCount ↔
      trade.checkShares = .ok () ∧ trade.checkPaths = .ok () ∧ trade.checkAmounts = .ok () ∧
        adapterCount = trade.fills.length := by
  have hroutes : PercentsPass (trade.routes.map (·.percent)) ↔
      MakeWhole (trade.routes.map (·.percent)) :=
    percentsPass_iff (List.forall_mem_map.2 fun route hroute => (hfinite route hroute).1)
  have hfills : ∀ route ∈ trade.routes, ∀ hop ∈ route.hops,
      (PercentsPass (hop.fills.map (·.percent)) ↔ MakeWhole (hop.fills.map (·.percent))) :=
    fun route hroute hop hhop =>
      percentsPass_iff (List.forall_mem_map.2 ((hfinite route hroute).2 hop hhop))
  rw [checkShares_eq_ok_iff, checkPaths_eq_ok_iff, checkAmounts_eq_ok_iff]
  constructor
  · intro h
    refine ⟨⟨h.routes_ne_nil, hroutes.2 h.routePercents, fun route hroute =>
        ⟨h.hops_ne_nil route hroute, fun hop hhop => ⟨h.fills_ne_nil route hroute hop hhop, ?_⟩⟩⟩,
      fun route hroute => ⟨h.starts route hroute, h.ends route hroute, h.links route hroute⟩,
      ⟨h.sourceAmount, h.fillAmounts⟩, h.adapters⟩
    exact (hfills route hroute hop hhop).2 (h.fillPercents route hroute hop hhop)
  · rintro ⟨⟨hne, hpercents, hfull⟩, hleads, ⟨htraded, hsold⟩, hcount⟩
    exact
      { routes_ne_nil := hne
        hops_ne_nil := fun route hroute => (hfull route hroute).1
        fills_ne_nil := fun route hroute hop hhop => ((hfull route hroute).2 hop hhop).1
        starts := fun route hroute => (hleads route hroute).starts
        ends := fun route hroute => (hleads route hroute).ends
        links := fun route hroute => (hleads route hroute).links
        routePercents := hroutes.1 hpercents
        fillPercents := fun route hroute hop hhop =>
          (hfills route hroute hop hhop).1 ((hfull route hroute).2 hop hhop).2
        sourceAmount := htraded
        fillAmounts := hsold
        adapters := hcount }

/-- The check accepts the well-formed trades and no others, and its faults are structural. -/
theorem check_iff_wellFormed (hfinite : trade.FinitePercents) (adapterCount : Nat) :
    (trade.check adapterCount = .ok () ↔ trade.WellFormed adapterCount) ∧
      ∀ fault, trade.check adapterCount = .error fault → fault.kind = .structural :=
  ⟨by rw [check_eq_ok_iff, wellFormed_iff hfinite], check_failsStructurally trade adapterCount⟩

theorem check_iff_wellFormed_sale : Job.sale.trade.FinitePercents ∧
    Job.sale.trade.WellFormed 4 ∧ ¬ Job.sale.trade.WellFormed 3 := by
  have hfinite : Job.sale.trade.FinitePercents := by
    unfold FinitePercents
    decide +kernel
  refine ⟨hfinite, (check_iff_wellFormed hfinite 4).1.1 (by decide +kernel), fun hthree => ?_⟩
  exact absurd ((check_iff_wellFormed hfinite 3).1.2 hthree) (by decide +kernel)

end Trade

end SwapCompiler
