import SwapCompiler.Proofs.Blame
import SwapCompiler.Proofs.Blocks
import SwapCompiler.Proofs.Native.Output
import SwapCompiler.Proofs.Shares

/-!
# The order of parallel routes

Parallel routes may stand in any order.  What a route compiles to, with the share in front
of it, does not depend on the routes around it: `Plan.blockPart` compiles a block as if it
were alone, and `Plan.RouteBuilt.blockPart_eq` and `Plan.exists_routeBuilt` compare this with
the same block in a trade.  Only the frame that sends native asset on moves, to whichever
route is last.

`Job.routes_reorder` puts it together for a valid trade and any order of its routes.
-/

namespace SwapCompiler

/-- The code of a route and its share, without the frame that sends native asset on. -/
def RoutePart.bare (part : RoutePart) : RoutePart :=
  { part with route := { part.route with forward := none } }

/-- That frame stands behind everything else. -/
theorem RouteCode.codeBytes_code (hops : List HopCode) (forward : Option Frame) :
    codeBytes (RouteCode.mk hops forward).code =
      codeBytes (RouteCode.mk hops none).code ++
        codeBytes (forward.toList.map Instruction.frame) := by
  simp [RouteCode.code]

namespace Plan

variable {plan other : Plan} {block : RouteBlock} {placed : PlacedRoute}

/-- The plan with the adapters of one block in place of all adapters. -/
def within (plan : Plan) (block : RouteBlock) : Plan :=
  { plan with adapters := block.adapters }

/-- The code of a block and its share, as if the block were alone. -/
def blockPart (plan : Plan) (block : RouteBlock) : Except Fault RoutePart := do
  let hops ← (plan.within block).hops block.alone plan.initialForm block.alone.hops
  let share ← onlyIf (plan.topology = .parallel)
    (Share.of block.route.percent plan.routeSource (codeBytes (RouteCode.mk hops none).code))
  .ok ⟨share, ⟨hops, none⟩⟩

theorem blockPart_eq_ok_iff {part : RoutePart} :
    plan.blockPart block = .ok part ↔
      (plan.within block).hops block.alone plan.initialForm block.alone.hops =
          .ok part.route.hops ∧
        onlyIf (plan.topology = .parallel)
          (Share.of block.route.percent plan.routeSource (codeBytes part.route.code)) =
            .ok part.share ∧
        part.route.forward = none := by
  constructor
  · intro h
    obtain ⟨hops, hhops, h⟩ := bind_eq_ok_iff.1 h
    obtain ⟨share, hshare, h⟩ := bind_eq_ok_iff.1 h
    obtain rfl := Except.ok.inj h
    exact ⟨hhops, hshare, rfl⟩
  · rintro ⟨hhops, hshare, hforward⟩
    obtain ⟨share, hops, forward⟩ := part
    obtain rfl : forward = none := hforward
    exact bind_eq_ok_iff.2 ⟨hops, hhops, bind_eq_ok_iff.2 ⟨share, hshare, rfl⟩⟩

/-- Alone or in the trade, the hops of a block compile to the same code. -/
theorem hops_within_iff (hplaces : block.Places plan.adapters placed) {held : NativeForm}
    {codes : List HopCode} :
    (plan.within block).hops block.alone held block.alone.hops = .ok codes ↔
      plan.hops placed held placed.hops = .ok codes := by
  have hto : (plan.within block).Carries plan :=
    ⟨rfl, rfl, rfl, rfl, fun _ h => h, fun _ _ h => h⟩
  have hfrom : plan.Carries (plan.within block) :=
    ⟨rfl, rfl, rfl, rfl, fun _ h => h, fun _ _ h => h⟩
  have hback : List.Forall₂ (PlacedHop.Alike plan.adapters block.adapters) placed.hops
      block.alone.hops :=
    (List.Forall₂.flip hplaces.hops).imp fun _ _ halike => halike.symm
  exact ⟨hops_carried hto hplaces.horizontal hplaces.hops,
    hops_carried hfrom hplaces.horizontal.symm hback⟩

/-- What a block compiles to in a trade is what it compiles to alone, up to the frame that
sends native asset on. -/
theorem RouteBuilt.blockPart_eq {part : RoutePart}
    (hwrapped : plan.network.isNative plan.network.wrapped = false) (hsettled : plan.Settled)
    (hroute : placed ∈ plan.layout.routes) (hconnected : placed.Connected plan.trade)
    (hplaces : block.Places plan.adapters placed) (h : plan.RouteBuilt placed part) :
    plan.blockPart block = .ok part.bare := by
  refine blockPart_eq_ok_iff.2 ⟨(hops_within_iff hplaces).2 h.hops, ?_, rfl⟩
  obtain ⟨hneeded, hshare⟩ := onlyIf_eq_ok_iff.1 h.share
  refine onlyIf_eq_ok_iff.2 ⟨hneeded, fun share hmem => ?_⟩
  have hof := hshare share hmem
  have hbytes := RouteCode.codeBytes_code part.route.hops part.route.forward
  rw [show part.route = ⟨part.route.hops, part.route.forward⟩ from rfl, hbytes,
    hplaces.route] at hof
  exact Share.of_of_append hof
    (exists_position_route hwrapped hsettled hroute hconnected ⟨part.route.hops, none⟩ h.hops _)

/-- A block that compiles alone compiles in a trade, in front of whatever frame its place
asks for. -/
theorem exists_route (hplaces : block.Places plan.adapters placed) {part : RoutePart}
    (h : plan.blockPart block = .ok part) :
    ∃ forward, plan.route placed = .ok ⟨part.route.hops, forward⟩ ∧
      (codeBytes (forward.toList.map Instruction.frame)).length ≤ 60 := by
  obtain ⟨hhops, _, _⟩ := blockPart_eq_ok_iff.1 h
  have hbuilt := (hops_within_iff hplaces).1 hhops
  cases hneeded : plan.forwardNative && decide (placed.position + 1 = plan.trade.routes.length) with
  | false =>
      refine ⟨none, bind_eq_ok_iff.2 ⟨_, hbuilt, bind_eq_ok_iff.2 ⟨none, ?_, rfl⟩⟩, by simp⟩
      rw [hneeded]
      rfl
  | true =>
      refine ⟨some Frame.sendNative,
        bind_eq_ok_iff.2 ⟨_, hbuilt, bind_eq_ok_iff.2 ⟨some Frame.sendNative, ?_, rfl⟩⟩, ?_⟩
      · rw [hneeded]
        exact onlyIf_eq_ok_iff.2 ⟨rfl, fun frame hmem => by
          obtain rfl := Option.some.inj hmem
          exact Frame.sendNative_checked_eq_ok_iff.2 rfl⟩
      · decide

/-- Its share is the one that it has alone, as far as the code can be counted. -/
theorem exists_routeBuilt (hplaces : block.Places plan.adapters placed) {part : RoutePart}
    (h : plan.blockPart block = .ok part)
    (hlength : (codeBytes part.route.code).length < Bytes.capacity 8) :
    ∃ built, plan.RouteBuilt placed built ∧ built.bare = part := by
  obtain ⟨forward, hroute, hforward⟩ := exists_route hplaces h
  obtain ⟨_, hshare, hnone⟩ := blockPart_eq_ok_iff.1 h
  obtain ⟨share, hops, found⟩ := part
  obtain rfl : found = none := hnone
  refine ⟨⟨share, ⟨hops, forward⟩⟩, routePart_eq_ok_iff.1 (bind_eq_ok_iff.2
    ⟨_, hroute, bind_eq_ok_iff.2 ⟨share, ?_, rfl⟩⟩), rfl⟩
  obtain ⟨hneeded, hbuilt⟩ := onlyIf_eq_ok_iff.1 hshare
  refine onlyIf_eq_ok_iff.2 ⟨hneeded, fun found hmem => ?_⟩
  have hwider : Bytes.capacity 8 + 60 ≤ Bytes.capacity 16 := by decide
  rw [RouteCode.codeBytes_code, hplaces.route]
  refine Share.of_append (hbuilt found hmem) ?_
  rw [List.length_append]
  have hlength : (codeBytes (RouteCode.mk hops none).code).length < Bytes.capacity 8 := hlength
  omega

theorem Countable.length_blockPart_lt (hcountable : plan.Countable)
    (hplaces : block.Places plan.adapters placed) (hroute : placed ∈ plan.layout.routes)
    {part : RoutePart} (h : plan.blockPart block = .ok part) :
    (codeBytes part.route.code).length < Bytes.capacity 8 := by
  obtain ⟨forward, hcode, _⟩ := exists_route hplaces h
  have hlength := hcountable.length_lt hroute hcode
  obtain ⟨_, _, hnone⟩ := blockPart_eq_ok_iff.1 h
  rw [RouteCode.codeBytes_code, List.length_append] at hlength
  rw [show part.route = ⟨part.route.hops, none⟩ from by rw [← hnone]]
  omega

/-- The other plan compiles every block as this one does. -/
structure Agrees (plan other : Plan) : Prop where
  carries : plan.Carries other
  initialForm : other.initialForm = plan.initialForm
  routeSource : other.routeSource = plan.routeSource

theorem Agrees.blockPart_eq (h : plan.Agrees other) {part : RoutePart}
    (hpart : plan.blockPart block = .ok part) : other.blockPart block = .ok part := by
  obtain ⟨hhops, hshare, hforward⟩ := blockPart_eq_ok_iff.1 hpart
  have hcarries : (plan.within block).Carries (other.within block) :=
    ⟨h.carries.network, h.carries.topology, h.carries.source, h.carries.destination,
      h.carries.wrapFrame, h.carries.unwrapFrame⟩
  refine blockPart_eq_ok_iff.2 ⟨?_, ?_, hforward⟩
  · rw [h.initialForm]
    exact hops_carried hcarries rfl (List.forall₂_same.2 fun hop _ => .refl _ hop) hhops
  · rw [h.carries.topology, h.routeSource]
    exact hshare

/-! ## All routes -/

/-- A plan for a connected trade that is made up of the given blocks. -/
structure Holds (plan : Plan) (blocks : List RouteBlock) : Prop where
  wrapped : plan.network.isNative plan.network.wrapped = false
  settled : plan.Settled
  connected : plan.trade.Connected
  places : List.Forall₂ (RouteBlock.Places plan.adapters) blocks plan.layout.routes

variable {blocks order : List RouteBlock}

theorem Holds.blockParts (h : plan.Holds blocks) {parts : List RoutePart}
    (hparts : plan.routes = .ok parts) :
    List.Forall₂ (fun block part => plan.blockPart block = .ok part) blocks
      (parts.map RoutePart.bare) := by
  have hbuilt := routes_eq_ok_iff.1 hparts
  rw [List.forall₂_map_right_iff]
  refine forall₂_of_getElem? (h.places.length_eq.trans hbuilt.length_eq)
    fun k block part hblock hpart => ?_
  obtain ⟨placed, hplaced, hplaces⟩ := exists_rel_of_forall₂ h.places hblock
  have hmem := List.mem_of_getElem? hplaced
  exact (rel_of_forall₂ hbuilt hplaced hpart).blockPart_eq h.wrapped h.settled hmem
    (h.connected.placed hmem) hplaces

theorem Holds.exists_routes (h : plan.Holds blocks) {bares : List RoutePart}
    (hbares : List.Forall₂ (fun block part => plan.blockPart block = .ok part) blocks bares)
    (hlength : ∀ part ∈ bares, (codeBytes part.route.code).length < Bytes.capacity 8) :
    ∃ parts, plan.routes = .ok parts := by
  refine exists_mapM_eq_ok fun placed hmem => ?_
  obtain ⟨k, hplaced⟩ := List.mem_iff_getElem?.1 hmem
  obtain ⟨block, hblock⟩ := exists_getElem?_of_length_eq h.places.length_eq.symm hplaced
  obtain ⟨part, hpart, halone⟩ := exists_rel_of_forall₂ hbares hblock
  have hplaces := rel_of_forall₂ h.places hblock hplaced
  obtain ⟨built, hbuilt, _⟩ :=
    exists_routeBuilt hplaces halone (hlength part (List.mem_of_getElem? hpart))
  exact ⟨built, routePart_eq_ok_iff.2 hbuilt⟩

theorem Holds.length_lt (h : plan.Holds blocks) (hcountable : plan.Countable)
    (hblock : block ∈ blocks) {part : RoutePart} (hpart : plan.blockPart block = .ok part) :
    (codeBytes part.route.code).length < Bytes.capacity 8 := by
  obtain ⟨k, hk⟩ := List.mem_iff_getElem?.1 hblock
  obtain ⟨placed, hplaced, hplaces⟩ := exists_rel_of_forall₂ h.places hk
  exact hcountable.length_blockPart_lt hplaces (List.mem_of_getElem? hplaced) hpart

/-- What one plan compiles its blocks to, the other compiles the same blocks to, in their
other order. -/
theorem Holds.exists_bares (h : plan.Holds blocks) (hagrees : plan.Agrees other)
    (horder : order.Perm blocks) {parts : List RoutePart} (hparts : plan.routes = .ok parts) :
    ∃ bares, List.Forall₂ (fun block part => other.blockPart block = .ok part) order bares ∧
      (order.zip bares).Perm (blocks.zip (parts.map RoutePart.bare)) :=
  exists_forall₂_of_perm horder
    ((h.blockParts hparts).imp fun _ _ hpart => hagrees.blockPart_eq hpart)

/-- The frame that sends native asset on closes the last route, if it is sent on, and no
other. -/
def ForwardsLast (plan : Plan) (sends : Bool) : Prop :=
  ∀ parts, plan.routes = .ok parts → ∀ (r : Nat) (part : RoutePart), parts[r]? = some part →
    part.route.forward =
      if sends && r + 1 = parts.length then some Frame.sendNative else none

/-- The plans of two trades that have the same routes in different orders. -/
structure Reordered (plan other : Plan) (blocks order : List RouteBlock) : Prop where
  topology : other.topology = plan.topology
  rootWrap : other.rootWrap = plan.rootWrap
  rootUnwrap : other.rootUnwrap = plan.rootUnwrap
  compiles : (∃ parts, plan.routes = .ok parts) ↔ ∃ parts, other.routes = .ok parts
  /-- Each route keeps its code and its share, which tells the position of the source and
  the percentage. -/
  parts : ∀ parts others, plan.routes = .ok parts → other.routes = .ok others →
    (order.zip (others.map RoutePart.bare)).Perm (blocks.zip (parts.map RoutePart.bare))
  forwards : plan.ForwardsLast plan.forwardNative ∧ other.ForwardsLast plan.forwardNative

end Plan

namespace Job

variable {job : Job} {blocks order : List RouteBlock}

/-- Trades of several routes are parallel. -/
theorem topology_reorder (htwo : 2 ≤ order.length) :
    (job.reorder order).trade.topology = .parallel := by
  obtain ⟨first, rest, rfl⟩ := List.exists_cons_of_length_pos (Nat.lt_of_lt_of_le Nat.two_pos htwo)
  obtain ⟨second, rest, rfl⟩ :=
    List.exists_cons_of_length_pos (Nat.lt_of_succ_lt_succ (Nat.lt_of_lt_of_le Nat.one_lt_two htwo))
  rfl

section

variable (hfits : ∀ block ∈ blocks, block.Fits) (horder : order.Perm blocks)
  (htwo : 2 ≤ blocks.length)

include hfits horder htwo

/-- What is settled for the trade as a whole does not depend on the order of its routes. -/
theorem settled_reorder (job : Job) :
    (job.reorder order).wrapsRoot = (job.reorder blocks).wrapsRoot ∧
      (job.reorder order).unwrapsRoot = (job.reorder blocks).unwrapsRoot ∧
      (job.reorder order).forwards = (job.reorder blocks).forwards := by
  have hfirst := job.adaptersOn_perm hfits horder fun _ => 0
  have hlast := job.adaptersOn_perm hfits horder (· - 1)
  rw [← firstAdapters_eq, ← firstAdapters_eq] at hfirst
  rw [← lastAdapters_eq, ← lastAdapters_eq] at hlast
  have htopology : (job.reorder order).trade.topology = (job.reorder blocks).trade.topology := by
    rw [topology_reorder htwo, topology_reorder (by rwa [horder.length_eq])]
  unfold wrapsRoot unwrapsRoot forwards
  rw [htopology, hfirst.all_eq, hlast.any_eq, hlast.any_eq]
  exact ⟨rfl, rfl, rfl⟩

/-- So the plans for both orders compile every block alike. -/
theorem agrees_reorder (job : Job) :
    (job.reorder blocks).settled.Agrees (job.reorder order).settled := by
  obtain ⟨hwraps, _, _⟩ := job.settled_reorder hfits horder htwo
  constructor
  · refine ⟨rfl, ?_, rfl, rfl, fun _ h => h, fun _ _ h => h⟩
    show (job.reorder order).trade.topology = (job.reorder blocks).trade.topology
    rw [topology_reorder htwo, topology_reorder (by rwa [horder.length_eq])]
  · unfold Plan.initialForm settled
    rw [hwraps]
  · unfold Plan.routeSource settled
    rw [hwraps]
    rfl

end

/-- Any order of connected routes is connected. -/
theorem connected_reorder (horder : order.Perm blocks)
    (h : (job.reorder blocks).trade.Connected) : (job.reorder order).trade.Connected := by
  have hroutes : ∀ route ∈ (job.reorder order).trade.routes,
      route ∈ (job.reorder blocks).trade.routes :=
    fun route hmem => (horder.map _).mem_iff.1 hmem
  exact
    { routes_ne_nil := by
        intro hnil
        have hperm := horder.map RouteBlock.route
        rw [show order.map RouteBlock.route = [] from hnil] at hperm
        exact h.routes_ne_nil hperm.nil_eq.symm
      hops_ne_nil := fun route hmem => h.hops_ne_nil route (hroutes route hmem)
      fills_ne_nil := fun route hmem => h.fills_ne_nil route (hroutes route hmem)
      starts := fun route hmem => h.starts route (hroutes route hmem)
      ends := fun route hmem => h.ends route (hroutes route hmem)
      links := fun route hmem => h.links route (hroutes route hmem) }

theorem holds_reorder (hfits : ∀ block ∈ order, block.Fits)
    (hwrapped : job.network.isNative job.network.wrapped = false)
    (hconnected : (job.reorder order).trade.Connected) :
    (job.reorder order).settled.Holds order :=
  ⟨hwrapped, settled_settled _, hconnected, forall₂_places_reorder hfits⟩

theorem reordered_settled (hfits : ∀ block ∈ blocks, block.Fits) (horder : order.Perm blocks)
    (htwo : 2 ≤ blocks.length) (hwrapped : job.network.isNative job.network.wrapped = false)
    (hconnected : (job.reorder blocks).trade.Connected)
    (hcountable : (job.reorder blocks).settled.Countable) :
    (job.reorder blocks).settled.Reordered (job.reorder order).settled blocks order := by
  have hfits' : ∀ block ∈ order, block.Fits :=
    fun block hmem => hfits block (horder.mem_iff.1 hmem)
  have htwo' : 2 ≤ order.length := by rwa [horder.length_eq]
  have hholds := holds_reorder hfits hwrapped hconnected
  have hholds' := holds_reorder hfits' hwrapped (connected_reorder horder hconnected)
  have hagrees := job.agrees_reorder hfits horder htwo
  have hagrees' := job.agrees_reorder hfits' horder.symm htwo'
  obtain ⟨hwraps, hunwraps, hforwards⟩ := job.settled_reorder hfits horder htwo
  have hforward : (job.reorder order).settled.forwardNative =
      (job.reorder blocks).settled.forwardNative := by
    unfold settled
    rw [hunwraps, hforwards]
  -- one bound on lengths serves both orders: what a block compiles to alone is shorter
  have hlength : ∀ block ∈ blocks, ∀ part, (job.reorder blocks).settled.blockPart block = .ok part →
      (codeBytes part.route.code).length < Bytes.capacity 8 :=
    fun block hmem part hpart => hholds.length_lt hcountable hmem hpart
  refine ⟨hagrees.carries.topology, hwraps, hunwraps, ⟨?_, ?_⟩, ?_, ?_, ?_⟩
  · rintro ⟨parts, hparts⟩
    obtain ⟨bares, hbares, _⟩ := hholds.exists_bares hagrees horder hparts
    refine hholds'.exists_routes hbares fun part hmem => ?_
    obtain ⟨block, hblock, hpart⟩ := exists_mem_of_forall₂ hbares hmem
    exact hlength block (horder.mem_iff.1 hblock) part (hagrees'.blockPart_eq hpart)
  · rintro ⟨parts, hparts⟩
    obtain ⟨bares, hbares, _⟩ := hholds'.exists_bares hagrees' horder.symm hparts
    refine hholds.exists_routes hbares fun part hmem => ?_
    obtain ⟨block, hblock, hpart⟩ := exists_mem_of_forall₂ hbares hmem
    exact hlength block hblock part hpart
  · intro parts others hparts hothers
    obtain ⟨bares, hbares, hzip⟩ := hholds.exists_bares hagrees horder hparts
    have hsame : others.map RoutePart.bare = bares :=
      List.right_unique_forall₂' (fun _ _ _ hone htwo => Except.ok.inj (hone.symm.trans htwo))
        (hholds'.blockParts hothers) hbares
    rwa [hsame]
  · intro parts hparts r part hpart
    exact Plan.route_forward (Plan.routes_eq_ok_iff.1 hparts) hpart
  · intro parts hparts r part hpart
    rw [← hforward]
    exact Plan.route_forward (Plan.routes_eq_ok_iff.1 hparts) hpart

/-- The order of parallel routes is immaterial.  Reordered with their adapters, the routes
of a valid trade are planned alike, they compile exactly if they have compiled before, and
each of them compiles to the same code behind the same share; only the frame that sends
native asset on closes whichever route is last. -/
theorem routes_reorder (hwrapped : job.network.wrapped ≠ job.network.native)
    (hcheck : job.check = .ok ()) (htwo : 2 ≤ job.trade.routes.length)
    (hcountable : job.Countable) (horder : order.Perm job.blocks) :
    (∀ fault, Plan.of (job.reorder order) = .error fault ↔ Plan.of job = .error fault) ∧
      ∀ plan other, Plan.of job = .ok plan → Plan.of (job.reorder order) = .ok other →
        plan.Reordered other job.blocks order := by
  obtain ⟨hconnected, hcount⟩ := Trade.connected_of_check hcheck
  have hself : job.reorder job.blocks = job := reorder_blocks hcount
  have hfits := fits_of_mem_blocks hcount
  have hcount' : (job.reorder order).adapters.length = (job.reorder order).trade.fills.length :=
    adapters_length_reorder fun block hmem => hfits block (horder.mem_iff.1 hmem)
  have htwo' : 2 ≤ job.blocks.length := by
    rwa [← RouteBlock.map_route_cut job.trade.routes job.adapters, List.length_map] at htwo
  have hforeign : job.network.isNative job.network.wrapped = false :=
    Network.isNative_eq_false_iff.2 hwrapped
  constructor
  · obtain ⟨_, hunwraps, _⟩ := job.settled_reorder hfits horder htwo'
    rw [hself] at hunwraps
    intro fault
    rw [Plan.of_eq hcount, Plan.of_eq hcount', hunwraps]
    show (if job.unwrapsRoot && job.withdraw?.isNone then _ else _) = _ ↔ _
    split <;> simp
  · intro plan other hplan hother
    have hplanCountable := hcountable.plan hplan
    obtain ⟨_, rfl⟩ := (Plan.of_eq_ok_iff hcount).1 hplan
    obtain ⟨_, rfl⟩ := (Plan.of_eq_ok_iff hcount').1 hother
    have hreordered := reordered_settled hfits horder htwo' hforeign (by rwa [hself])
      (by rwa [hself])
    rwa [hself] at hreordered

/-- Native asset is bought raw along two routes, the first of which does not pay the
recipient. -/
def payout : Job :=
  { purchase with
    adapters := [.small 11 500 false false, .small 12 501 false true] }

theorem routes_reorder_payout : ∃ plan other, Plan.of payout = .ok plan ∧
    Plan.of (payout.reorder payout.blocks.reverse) = .ok other ∧ plan.forwardNative = true ∧
    (∃ parts, other.routes = .ok parts) ∧
    plan.Reordered other payout.blocks payout.blocks.reverse := by
  have hplan : Plan.of payout = .ok payout.settled := rfl
  have hother : Plan.of (payout.reorder payout.blocks.reverse) =
      .ok (payout.reorder payout.blocks.reverse).settled := rfl
  obtain ⟨_, hreordered⟩ := routes_reorder (by decide) (by decide +kernel) (by decide)
    (by decide +kernel) (List.reverse_perm payout.blocks)
  have hsame := hreordered _ _ hplan hother
  exact ⟨_, _, hplan, hother, rfl,
    hsame.compiles.1 (exists_eq_ok_of_isSome (by decide +kernel)), hsame⟩

end Job

end SwapCompiler
