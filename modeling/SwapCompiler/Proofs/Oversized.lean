import SwapCompiler.Proofs.Calls
import SwapCompiler.Proofs.Stops

/-!
# Amounts that do not fit in a word

Amounts are numbers of any size; in code they are words.  `Job.amounts_of_transaction` says
what becomes of an amount that is too large.

* A transaction is made only if every amount that its code uses fits.  The amount that is
  sent along as native value is not looked at.
* Where there is no transaction, a fault of one of the reported kinds says why.  The one
  exception is an amount that is passed to a token contract: its width is not checked, and
  the compilation is abandoned.

`Job.transaction_oversized` shows that both gaps are met.
-/

namespace SwapCompiler

/-- The causes that are reported to the caller as faults of the request. -/
def Fault.Reported (fault : Fault) : Prop :=
  fault.kind = .structural ∨ fault.kind = .pattern ∨ fault.kind = .topology

/-! ## What a success says of amounts -/

theorem Frame.lt_of_ofAmountCall {selector : Bytes} {token party : Address} {amount : Nat}
    {frame : Frame} (h : (ofAmountCall selector token party amount >>= checked) = .ok frame) :
    amount < Bytes.capacity 32 := by
  obtain ⟨_, _, _, hfits, _⟩ := spec_ofAmountCall (bind_checked_eq_ok_iff.1 h).1
  exact hfits

namespace Plan

variable {plan : Plan}

/-- The amounts that the code of a plan uses. -/
def Uses (plan : Plan) (amount : Nat) : Prop :=
  plan.Searches amount ∨ plan.Passes amount

/-- The compiler comes to every fill of the trade. -/
def ReachesAll (plan : Plan) : Prop :=
  ∀ route ∈ plan.layout.routes, ∀ hop ∈ route.hops, ∀ placed ∈ hop.fills,
    ∃ held adapter, plan.ReachesFill route hop held placed adapter

section

variable {parts : List RoutePart} (h : plan.routes = .ok parts)

include h

/-- The hops of every route have their codes. -/
theorem exists_hops_of_routes {route : PlacedRoute} (hroute : route ∈ plan.layout.routes) :
    ∃ codes, plan.hops route plan.initialForm route.hops = .ok codes := by
  obtain ⟨r, hr⟩ := List.mem_iff_getElem?.1 hroute
  obtain ⟨part, _, hpart⟩ := exists_rel_of_forall₂ (routes_eq_ok_iff.1 h) hr
  exact ⟨part.route.hops, hpart.hops⟩

theorem reachesAll_of_routes : plan.ReachesAll := by
  intro route hroute hop hhop placed hplaced
  obtain ⟨codes, hcodes⟩ := exists_hops_of_routes h hroute
  obtain ⟨i, hi⟩ := List.mem_iff_getElem?.1 hhop
  have hreached := reaches_of_hops hcodes hi
  obtain ⟨code, hbuilt⟩ := hreached.hopBuilt hcodes
  obtain ⟨k, hk⟩ := List.mem_iff_getElem?.1 hplaced
  obtain ⟨adapter, _, hgiven⟩ :=
    exists_rel_of_forall₂ (PlacedHop.adapters_eq_ok_iff.1 hbuilt.found) hk
  exact ⟨_, adapter, hroute, hreached, hplaced, hgiven⟩

/-- The frames of a fill that the compiler comes to. -/
theorem ReachesFill.exists_leg {route : PlacedRoute} {hop : PlacedHop} {held : NativeForm}
    {placed : PlacedFill} {adapter : Adapter}
    (hfill : plan.ReachesFill route hop held placed adapter) :
    ∃ here leg, plan.LegBuilt (plan.scene route hop held (plan.adaptersAt hop)) here placed.fill
      adapter leg := by
  obtain ⟨codes, hcodes⟩ := exists_hops_of_routes h hfill.route_mem
  obtain ⟨code, hbuilt⟩ := hfill.reached.hopBuilt hcodes
  -- the part at the place of the fill was built from it, through the adapter given for it
  obtain ⟨k, hk⟩ := List.mem_iff_getElem?.1 hfill.fill_mem
  obtain ⟨part, hpart⟩ := exists_getElem?_of_length_eq hbuilt.lengths.2.symm hk
  obtain ⟨found, given, here, hfound, _, hgiven, _, hleg⟩ := hbuilt.part_built hpart
  obtain rfl : found = placed := Option.some.inj (hfound.symm.trans hk)
  obtain rfl : given = adapter := Option.some.inj (hgiven.symm.trans hfill.adapter_at)
  exact ⟨here, part.leg, hleg.leg⟩

/-- Every amount that is used fits in a word. -/
theorem lt_of_uses {amount : Nat} (huses : plan.Uses amount) : amount < Bytes.capacity 32 := by
  rcases huses with ⟨hfill, hpatches⟩ | ⟨hfill, hsold⟩ | ⟨hfill, htransfers⟩
  · obtain ⟨here, leg, hleg⟩ := hfill.exists_leg h
    exact (Call.occursAt_of_patches hleg.call hpatches).1
  · obtain ⟨here, leg, hleg⟩ := hfill.exists_leg h
    obtain ⟨frame, _, hframe⟩ := exists_of_onlyIf hleg.approve ((Bool.not_eq_true' _).mpr hsold)
    exact Frame.lt_of_ofAmountCall hframe
  · obtain ⟨here, leg, hleg⟩ := hfill.exists_leg h
    obtain ⟨frame, _, hframe⟩ := exists_of_onlyIf hleg.transfer htransfers
    exact Frame.lt_of_ofAmountCall hframe

end

/-- What stops the compiler is reported, but for an amount that is too large and is
passed to a token contract. -/
theorem reported_of_stops {fault : Fault} (h : plan.Stops fault) :
    fault.Reported ∨ ∃ amount, plan.Passes amount ∧ Bytes.capacity 32 ≤ amount ∧
      fault = .argumentTooWide amount := by
  cases h with
  | pattern hkind => exact .inl (.inr (.inl hkind))
  | topology hkind => exact .inl (.inr (.inr hkind))
  | adapter => exact .inl (.inl rfl)
  | deposit => exact .inl (.inl rfl)
  | withdraw => exact .inl (.inl rfl)
  | withdrawLength => exact .inl (.inl rfl)
  | frame _ hmisfit => cases hmisfit <;> exact .inl (.inl rfl)
  | searched => exact .inl (.inl rfl)
  | passed hpasses hwide => exact .inr ⟨_, hpasses, hwide, rfl⟩
  | uncountable _ hkind => exact .inl (.inl hkind)

end Plan

namespace Job

/-- A transaction is made only if every amount that the code of its plan uses, at any fill,
fits in a word; its value is the amount sold, however large.  If none is made, the
fault is of a reported kind, or an amount that does not fit was passed to a token
contract. -/
theorem amounts_of_transaction (job : Job) :
    (∀ transaction, job.transaction = .ok transaction →
      (∃ plan, Plan.of job = .ok plan ∧ plan.ReachesAll ∧
        ∀ amount, plan.Uses amount → amount < Bytes.capacity 32) ∧
      (Bytes.capacity 32 ≤ transaction.value ↔
        job.nativeSource = true ∧ Bytes.capacity 32 ≤ job.trade.sourceAmount)) ∧
    ∀ fault, job.transaction = .error fault → fault.Reported ∨
      ∃ plan amount, Plan.of job = .ok plan ∧ plan.Passes amount ∧
        Bytes.capacity 32 ≤ amount ∧ fault = .argumentTooWide amount := by
  constructor
  · intro transaction h
    obtain ⟨data, hdata, h⟩ := bind_eq_ok_iff.1 h
    obtain rfl := Except.ok.inj h
    obtain ⟨program, hcompile, _⟩ := map_eq_ok_iff.1 hdata
    obtain ⟨_, plan, hplan, hbuilt⟩ := Job.compile_eq_ok_iff.1 hcompile
    have hroutes := Plan.routes_eq_ok_iff.2 hbuilt.routes
    refine ⟨⟨plan, hplan, Plan.reachesAll_of_routes hroutes,
      fun amount huses => Plan.lt_of_uses hroutes huses⟩, ?_⟩
    cases job.nativeSource with
    | false => simp [Bytes.capacity]
    | true => simp
  · show FailsOnly _ job.transaction
    refine FailsOnly.bind (bytecode_failsOnly ?_ ?_ ?_) fun _ _ => .ok _
    · exact (Trade.check_failsStructurally _ _).mono fun _ hkind => .inl (.inl hkind)
    · exact fun _ _ => .inl (.inl rfl)
    · intro plan hplan fault hstops
      rcases Plan.reported_of_stops hstops with hreported | ⟨amount, hpasses, hwide, hfault⟩
      · exact .inl hreported
      · exact .inr ⟨plan, amount, hplan, hpasses, hwide, hfault⟩

/-- A trade of a single fill: so much is traded, and so much is sold to the exchange. -/
def lone (source : Address) (traded sold : Nat) : Job :=
  { trade :=
      { source := source
        destination := .ofNat 6
        sourceAmount := traded
        destinationAmount := 5
        routes := [⟨100.0, [⟨source, .ofNat 6, [⟨"first", 100.0, sold, 1⟩]⟩]⟩] }
    adapters := [.small 11 500 false true]
    wrapCalls := none
    network := .small }

/-- A token is allowed to an exchange in an amount that does not fit in a word. -/
def oversized : Job :=
  lone (.ofNat 5) 1000 (Bytes.capacity 32)

/-- Native asset is traded in an amount that does not fit in a word. -/
def overpaid : Job :=
  lone (.ofNat 3) (Bytes.capacity 32) 500

theorem transaction_oversized_eq :
    oversized.transaction = .error (.argumentTooWide (Bytes.capacity 32)) := by
  decide +kernel

/-- It is an allowance that stops the compilation. -/
theorem amounts_of_transaction_oversized : ∃ plan, Plan.of oversized = .ok plan ∧
    plan.Passes (Bytes.capacity 32) := by
  obtain ⟨_, hfails⟩ := amounts_of_transaction oversized
  rcases hfails _ transaction_oversized_eq with hreported | ⟨plan, _, hplan, hpasses, _, hfault⟩
  · rcases hreported with hkind | hkind | hkind <;> exact nomatch hkind
  · obtain rfl := Fault.argumentTooWide.inj hfault
    exact ⟨plan, hplan, hpasses⟩

/-- The compilation of the one is abandoned; for the other there is a transaction, with a
value that does not fit. -/
theorem transaction_oversized :
    oversized.transaction = .error (.argumentTooWide (Bytes.capacity 32)) ∧
      (Fault.argumentTooWide (Bytes.capacity 32)).kind = .abandoned ∧
      ∃ transaction, overpaid.transaction = .ok transaction ∧
        transaction.value = Bytes.capacity 32 := by
  have hmade : (overpaid.transaction.toOption.map (·.value)) = some (Bytes.capacity 32) := by
    decide +kernel
  obtain ⟨transaction, htransaction, hvalue⟩ := Option.map_eq_some_iff.1 hmade
  exact ⟨transaction_oversized_eq, rfl, transaction, eq_ok_of_toOption htransaction, hvalue⟩

end Job

end SwapCompiler
