import SwapCompiler.Proofs.Stops

/-!
# What a valid trade can fail for

A trade that has passed its check, with amounts that fit in a word, can still fail: a
pattern is missing, there is no code for a combination, or there is an obstacle in what has
been given along with the trade.  `Job.Obstacle` lists these obstacles, and
`Job.obstacle_of_structural` says that no other structural fault is left.

The causes that are never met, such as a missing adapter or a field of a share that is too
narrow, are collected in `Fault.RuledOut`.
-/

namespace SwapCompiler

/-- What may be wrong with the data given along with a valid trade. -/
inductive Job.Obstacle (job : Job) : Fault → Prop
  | deposit {plan : Plan} : job.deposit? = none → Plan.of job = .ok plan → plan.NeedsWrap →
      Obstacle job .depositMissing
  | withdraw {plan : Plan} : job.withdraw? = none → Plan.of job = .ok plan → plan.NeedsUnwrap →
      Obstacle job .withdrawMissing
  /-- Without it there is not even a plan to unwrap behind all routes. -/
  | withdrawPlanned : job.withdraw? = none → job.unwrapsRoot = true →
      Obstacle job .withdrawMissing
  /-- A selector and an amount take 36 bytes. -/
  | withdrawLength {withdraw : Bytes} : job.withdraw? = some withdraw → withdraw.length < 36 →
      Obstacle job (.withdrawTooShort withdraw.length)
  | frame {plan : Plan} {frame : Frame} {fault : Fault} : Plan.of job = .ok plan →
      plan.Writes frame → frame.Misfit fault → Obstacle job fault

/-- The causes that a valid trade does not fail for, whatever is given along with it. -/
def Fault.RuledOut : Fault → Prop
  | .adapterMissing _ | .adapterCount .. | .branchTokenMissing => True
  | .fieldTooWide name _ _ => name ∉ ["Frame length", "fromAmount offset", "destToken offset"]
  | fault => fault.kind = .input ∨ fault.kind = .setup ∨ fault.kind = .abandoned

/-- No missed pattern is ruled out, and no combination without code. -/
theorem Fault.kind_of_ruledOut {fault : Fault} (h : fault.RuledOut) :
    fault.kind ≠ .pattern ∧ fault.kind ≠ .topology := by
  constructor <;> intro hkind <;> cases fault <;>
    first
    | cases hkind; done
    | rcases h with hother | hother | hother <;> cases hother

theorem Fault.not_ruledOut_of_pattern {fault : Fault} (h : fault.kind = .pattern) :
    ¬ fault.RuledOut :=
  fun hruled => (kind_of_ruledOut hruled).1 h

theorem Fault.not_ruledOut_of_topology {fault : Fault} (h : fault.kind = .topology) :
    ¬ fault.RuledOut :=
  fun hruled => (kind_of_ruledOut hruled).2 h

namespace Job

variable {job : Job}

theorem Obstacle.not_ruledOut {fault : Fault} (h : job.Obstacle fault) : ¬ fault.RuledOut := by
  cases h with
  | deposit | withdraw | withdrawPlanned | withdrawLength =>
      rintro (hkind | hkind | hkind) <;> exact nomatch hkind
  | frame _ _ hmisfit => cases hmisfit <;> simp [Fault.RuledOut]

/-- The fills of the layout are those of the trade. -/
theorem fill_mem_fills {route : PlacedRoute} (hroute : route ∈ job.layout.routes)
    {hop : PlacedHop} (hhop : hop ∈ route.hops) {placed : PlacedFill}
    (hplaced : placed ∈ hop.fills) : placed.fill ∈ job.trade.fills := by
  have hsite : (hop, placed) ∈ (Layout.of job.trade).sites :=
    Layout.mem_sites_iff.2 ⟨route, hroute, hhop, hplaced⟩
  rw [← Layout.map_fill_sites]
  exact List.mem_map.2 ⟨_, hsite, rfl⟩

/-- Of the causes that can stop a compilation, a check, amounts of ordinary size and code of
countable length leave the obstacles. -/
theorem obstacle_of_stops {plan : Plan} {fault : Fault} (hcheck : job.check = .ok ())
    (hamounts : ∀ fill ∈ job.trade.fills,
      fill.sourceAmount < Bytes.capacity 32 ∧ fill.destinationAmount < Bytes.capacity 32)
    (hplan : Plan.of job = .ok plan) (hcountable : plan.Countable) (h : plan.Stops fault) :
    fault.kind = .pattern ∨ fault.kind = .topology ∨ job.Obstacle fault := by
  have hcount := (Trade.connected_of_check hcheck).2
  obtain ⟨_, rfl⟩ := (Plan.of_eq_ok_iff hcount).1 hplan
  have hfits : ∀ {route : PlacedRoute} {hop : PlacedHop} {held : NativeForm} {placed : PlacedFill}
      {adapter : Adapter}, job.settled.ReachesFill route hop held placed adapter →
        placed.fill.sourceAmount < Bytes.capacity 32 ∧
          placed.fill.destinationAmount < Bytes.capacity 32 :=
    fun hfill => hamounts _ (fill_mem_fills hfill.route_mem hfill.reached.mem hfill.fill_mem)
  cases h with
  | pattern hkind => exact .inl hkind
  | topology hkind => exact .inr (.inl hkind)
  | adapter hroute hhop hplaced hnone =>
      -- there is one adapter for each fill
      have hindex := Nat.lt_of_lt_of_eq (index_lt_of_mem hroute hhop hplaced) hcount.symm
      exact absurd hindex (Nat.not_lt.2 (List.getElem?_eq_none_iff.1 hnone))
  | deposit hnone hneeds => exact .inr (.inr (.deposit hnone hplan hneeds))
  | withdraw hnone hneeds => exact .inr (.inr (.withdraw hnone hplan hneeds))
  | withdrawLength hgiven hshort => exact .inr (.inr (.withdrawLength hgiven hshort))
  | frame hwrites hmisfit => exact .inr (.inr (.frame hplan hwrites hmisfit))
  | searched hsearches hwide =>
      obtain ⟨hfill, _⟩ := hsearches
      exact absurd (hfits hfill).1 (Nat.not_lt.2 hwide)
  | passed hpasses hwide =>
      cases hpasses with
      | approve hfill _ => exact absurd (hfits hfill).1 (Nat.not_lt.2 hwide)
      | transfer hfill _ => exact absurd (hfits hfill).2 (Nat.not_lt.2 hwide)
  | uncountable huncountable => exact absurd hcountable huncountable

/-- If a valid trade whose amounts fit in a word has no bytecode, and a 64-bit machine could
hold it, then a structural fault is an obstacle: calldata for the wrapped token is missing
where a frame needs it, the withdraw calldata is too short, or a frame is too long or has an
offset that is too large.  The fault is never one of those that are ruled out. -/
theorem obstacle_of_structural {fault : Fault} (hcheck : job.check = .ok ())
    (hamounts : ∀ fill ∈ job.trade.fills,
      fill.sourceAmount < Bytes.capacity 32 ∧ fill.destinationAmount < Bytes.capacity 32)
    (hcountable : job.Countable) (h : job.bytecode = .error fault) :
    (fault.kind = .structural → job.Obstacle fault) ∧ ¬ fault.RuledOut := by
  have hfails : FailsOnly
      (fun fault => fault.kind = .pattern ∨ fault.kind = .topology ∨ job.Obstacle fault)
      job.bytecode := by
    refine bytecode_failsOnly (.of_eq_ok hcheck) ?_ ?_
    · intro hroot hnone
      exact .inr (.inr (.withdrawPlanned hnone hroot))
    · intro plan hplan fault hstops
      exact obstacle_of_stops hcheck hamounts hplan (hcountable.plan hplan) hstops
  rcases hfails fault h with hkind | hkind | hobstacle
  · refine ⟨fun hstructural => ?_, Fault.not_ruledOut_of_pattern hkind⟩
    exact nomatch hstructural.symm.trans hkind
  · refine ⟨fun hstructural => ?_, Fault.not_ruledOut_of_topology hkind⟩
    exact nomatch hstructural.symm.trans hkind
  · exact ⟨fun _ => hobstacle, hobstacle.not_ruledOut⟩

/-- The sale without any calldata for the wrapped token, which its exchanges want. -/
def unfunded : Job :=
  { sale with wrapCalls := none }

theorem obstacle_of_structural_unfunded : unfunded.bytecode = .error .depositMissing ∧
    unfunded.Obstacle .depositMissing ∧ ¬ Fault.depositMissing.RuledOut := by
  have hfails : unfunded.bytecode = .error .depositMissing := by decide +kernel
  obtain ⟨hobstacle, hleft⟩ :=
    obstacle_of_structural (by decide +kernel) (by decide +kernel) (by decide +kernel) hfails
  exact ⟨hfails, hobstacle rfl, hleft⟩

end Job

end SwapCompiler
