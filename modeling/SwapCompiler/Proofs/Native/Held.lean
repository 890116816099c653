import SwapCompiler.Proofs.Built.Program

/-!
# The form in which native asset is held

Each hop of a route hands the native asset on raw or wrapped, and the next hop
is compiled for the form that it finds.

* `Job.heldBefore` reads that form off the adapters of the hop before;
  `Plan.entered_eq_heldBefore` says that the compiler has carried it along.
* `Plan.wrapPlaces` puts wraps in front of exchanges.  Where fills are shares
  each has its own; where they are not, the first serves all.
-/

namespace SwapCompiler

/-- The form in which a route holds native asset in front of the hop at a
position: in front of the first hop it is wrapped if a wrap stands in front of
all routes, and in front of a later hop if every exchange of the hop before deals
with the wrapped token. -/
def Job.heldBefore (job : Job) (rootWrapped : Bool) (hops : List PlacedHop) : Nat → NativeForm
  | 0 => if rootWrapped then .wrapped else .raw
  | i + 1 =>
      if hops[i]?.any fun hop => (job.adaptersAt hop).all (·.wrapsNative) then .wrapped else .raw

namespace Plan

variable {plan : Plan} {route : PlacedRoute} {hop : PlacedHop} {held : NativeForm}

/-- A hop that buys native asset leaves it wrapped exactly if all of its
exchanges deliver the wrapped token. -/
theorem HopBuilt.leaves_eq_ite {adapters : List Adapter} {code : HopCode}
    (h : plan.HopBuilt route hop held adapters code) (hfills : hop.fills ≠ [])
    (hnative : plan.network.isNative hop.hop.destination = true) :
    code.leaves = if adapters.all (·.wrapsNative) then .wrapped else .raw := by
  have hraw : adapters.any (!·.wrapsNative) = !adapters.all (·.wrapsNative) :=
    List.not_all_eq_any_not.symm
  rw [h.leaves, hnative, hraw, Bool.not_not]
  cases hall : adapters.all (·.wrapsNative) with
  | false => simp
  | true =>
      obtain ⟨adapter, hmem⟩ := List.exists_mem_of_ne_nil _ (h.adapters_ne_nil hfills)
      have hany : adapters.any (·.wrapsNative) = true :=
        List.any_eq_true.2 ⟨adapter, hmem, List.all_eq_true.1 hall adapter hmem⟩
      simp [hany]

/-- The form that the compiler has carried to a hop that sells native asset is
the one that the hop before has left. -/
theorem entered_eq_heldBefore {codes : List HopCode} (hroute : route.Connected plan.trade)
    (hcodes : plan.hops route plan.initialForm route.hops = .ok codes) {i : Nat}
    (hhop : route.hops[i]? = some hop) (hnative : plan.network.isNative hop.hop.source = true) :
    entered plan.initialForm codes i = plan.heldBefore plan.rootWrap route.hops i := by
  cases i with
  | zero => rfl
  | succ i =>
      have hi : i < route.hops.length := by
        have hlt := (List.getElem?_eq_some_iff.1 hhop).1
        omega
      obtain ⟨before, hbefore⟩ : ∃ before, route.hops[i]? = some before :=
        ⟨_, List.getElem?_eq_getElem hi⟩
      obtain ⟨code, hcode⟩ : ∃ code, codes[i]? = some code :=
        ⟨_, List.getElem?_eq_getElem (by rwa [length_hops hcodes])⟩
      obtain ⟨adapters, hbuilt⟩ := hopBuilt_of_hops hcodes hbefore hcode
      rw [← hroute.link hbefore hhop] at hnative
      have hleaves := hbuilt.leaves_eq_ite (hroute.fills_ne_nil hbefore) hnative
      have hfound : plan.adaptersAt before = adapters := Job.adaptersAt_eq hbuilt.found
      simp [entered, Job.heldBefore, hcode, hbefore, hleaves, hfound]

/-! ## Where wraps stand -/

section

variable (scene : HopScene) (adapters : List Adapter)

/-- Where fills are shares of their hop, a wrap stands in front of every exchange
that deals with the wrapped token, unless the asset is held wrapped already. -/
theorem wrapPlaces_of_shares (hshares : plan.sharesFills scene.hop = true) (wrapped : Bool) :
    plan.wrapPlaces scene wrapped adapters =
      adapters.map fun adapter => scene.wraps adapter && !scene.wrappedSource := by
  induction adapters generalizing wrapped with
  | nil => rfl
  | cons adapter rest ih => simp [wrapPlaces, wrapsAt, hshares, ih]

/-- Where they are not, one wrap serves the whole hop. -/
theorem wrapPlaces_of_served (hshares : plan.sharesFills scene.hop = false) :
    plan.wrapPlaces scene true adapters = adapters.map fun _ => false := by
  induction adapters with
  | nil => rfl
  | cons adapter rest ih =>
      have hhere : plan.wrapsAt scene true adapter = false := by
        simp [wrapsAt, hshares]
      rw [wrapPlaces, hhere, Bool.or_false, ih, List.map_cons]

/-- Asset that is held wrapped is not wrapped again. -/
theorem wrapPlaces_of_wrappedSource (hwrapped : scene.wrappedSource = true) (served : Bool) :
    plan.wrapPlaces scene served adapters = adapters.map fun _ => false := by
  induction adapters generalizing served with
  | nil => rfl
  | cons adapter rest ih => simp [wrapPlaces, wrapsAt, hwrapped, ih]

/-- Where no exchange deals with the wrapped token, nothing is wrapped. -/
theorem wrapPlaces_of_forall_not (hnone : ∀ adapter ∈ adapters, scene.wraps adapter = false)
    (served : Bool) : plan.wrapPlaces scene served adapters = adapters.map fun _ => false := by
  induction adapters generalizing served with
  | nil => rfl
  | cons adapter rest ih =>
      have hhere : plan.wrapsAt scene served adapter = false := by
        simp [wrapsAt, hnone adapter List.mem_cons_self]
      rw [wrapPlaces, hhere, List.map_cons,
        ih (fun other hmem => hnone other (List.mem_cons_of_mem _ hmem))]

/-- Exchanges of one form that are no shares have at most the first wrap. -/
theorem wrapPlaces_cons_of_uniform (hshares : plan.sharesFills scene.hop = false)
    (hraw : scene.wrappedSource = false) {first : Adapter}
    (huniform : ∀ adapter ∈ adapters, scene.wraps adapter = scene.wraps first) :
    plan.wrapPlaces scene false (first :: adapters) =
      scene.wraps first :: adapters.map fun _ => false := by
  have hhere : plan.wrapsAt scene false first = scene.wraps first := by
    simp [wrapsAt, hraw]
  rw [wrapPlaces, hhere, Bool.false_or]
  cases hfirst : scene.wraps first with
  | true => rw [wrapPlaces_of_served scene adapters hshares]
  | false =>
      rw [wrapPlaces_of_forall_not scene adapters fun adapter hmem =>
        (huniform adapter hmem).trans hfirst]

/-- Outside a trade of a single hop, only a hop of one fill is not split. -/
theorem length_fills_le_one (hsingle : plan.topology ≠ .single)
    (hshares : plan.sharesFills hop = false) : hop.fills.length ≤ 1 := by
  rw [sharesFills, Bool.and_eq_false_iff] at hshares
  simpa [hsingle] using hshares

/-- Outside a trade of a single hop, every exchange has the wrap that it needs. -/
theorem wrapPlaces_of_ne_single (hsingle : plan.topology ≠ .single)
    (hlength : adapters.length = scene.hop.fills.length) :
    plan.wrapPlaces scene false adapters =
      adapters.map fun adapter => scene.wraps adapter && !scene.wrappedSource := by
  cases hshares : plan.sharesFills scene.hop with
  | true => exact wrapPlaces_of_shares scene adapters hshares false
  | false =>
      have hone := length_fills_le_one hsingle hshares
      rw [← hlength] at hone
      rcases Nat.le_one_iff_eq_zero_or_eq_one.1 hone with hnone | hone
      · rw [List.eq_nil_of_length_eq_zero hnone]
        rfl
      · obtain ⟨adapter, rfl⟩ := List.length_eq_one_iff.1 hone
        simp [wrapPlaces, wrapsAt]

end

end Plan

end SwapCompiler
