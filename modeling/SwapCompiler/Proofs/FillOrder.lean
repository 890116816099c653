import SwapCompiler.Proofs.Built.Carried
import SwapCompiler.Proofs.Native.Tracking
import SwapCompiler.Proofs.Reading.Shape

/-!
# The order of a hop's fills

The fills of a hop may be taken in any order, each with its adapter.  A fill's part does not
depend on the fills around it: the hop as a whole is only asked whether some adapter wants
the wrapped token and whether some adapter wants the native asset.

* `Job.shuffle` puts the fills of one hop, and their adapters, into another order.
* `HopCode.Shuffles` says that a hop's code has the same parts in another order, in the same
  frames.
* `Job.shuffles_of_perm` puts it together for a valid trade and any order of the fills of
  one of its hops.
-/

namespace SwapCompiler

/-! ## Fills in another order -/

/-- The trade with other fills in hop `i` of route `r`. -/
def Trade.withFills (trade : Trade) (r i : Nat) (fills : List Fill) : Trade :=
  { trade with
    routes := trade.routes.modify r fun route =>
      { route with hops := route.hops.modify i fun hop => { hop with fills := fills } } }

/-- The number of fills in front of hop `i` of route `r`. -/
def Trade.fillsBefore (trade : Trade) (r i : Nat) : Nat :=
  countRouteFills (trade.routes.take r) +
    countFills ((trade.routes[r]?.elim [] (·.hops)).take i)

/-- The hop with other fills, numbered from the given number on. -/
def PlacedHop.withFills (hop : PlacedHop) (index : Nat) (fills : List Fill) : PlacedHop :=
  { hop with
    hop := { hop.hop with fills := fills }
    fills := placeFills index fills }

/-- The job with the given fills in hop `i` of route `r`, each with its adapter. -/
def Job.shuffle (job : Job) (r i : Nat) (order : List (Fill × Adapter)) : Job :=
  let start := job.trade.fillsBefore r i
  { job with
    trade := job.trade.withFills r i (order.map (·.1))
    adapters := job.adapters.take start ++ order.map (·.2) ++
      job.adapters.drop (start + order.length) }

theorem Trade.topology_withFills (trade : Trade) (r i : Nat) (fills : List Fill) :
    (trade.withFills r i fills).topology = trade.topology := by
  unfold topology withFills
  rcases trade.routes with _ | ⟨route, _ | ⟨next, rest⟩⟩
  · simp
  · cases r <;> simp
  · rcases r with _ | _ | r <;> simp

theorem PlacedHop.twin_withFills {hop : PlacedHop} {index : Nat} {fills : List Fill}
    (hlength : fills.length = hop.fills.length) :
    hop.Twin (fun _ _ => True) (hop.withFills index fills) where
  first := rfl
  last := rfl
  source := rfl
  destination := rfl
  fills := forall₂_of_getElem? (by rw [withFills, length_placeFills, hlength])
    fun _ _ _ _ _ => trivial

section

variable {job : Job} {r i : Nat} {route : PlacedRoute} {hop : PlacedHop}
  {order : List (Fill × Adapter)}

/-- The fills of a hop are numbered from the number of fills in front of it. -/
theorem PlacedHop.fills_eq (hroute : job.layout.routes[r]? = some route)
    (hhop : route.hops[i]? = some hop) :
    hop.fills = placeFills (job.trade.fillsBefore r i) hop.hop.fills := by
  rw [Job.layout, Layout.of, getElem?_placeRoutes] at hroute
  obtain ⟨given, hgiven, rfl⟩ := Option.map_eq_some_iff.1 hroute
  rw [getElem?_placeHops] at hhop
  obtain ⟨inner, hinner, rfl⟩ := Option.map_eq_some_iff.1 hhop
  simp [Trade.fillsBefore, hgiven]

/-- At the place of a hop stands the same hop with its new fills. -/
theorem Trade.exists_placed_withFills {trade : Trade}
    (hroute : (Layout.of trade).routes[r]? = some route) (hhop : route.hops[i]? = some hop)
    (fills : List Fill) :
    ∃ placed, (Layout.of (trade.withFills r i fills)).routes[r]? = some placed ∧
      placed.hops[i]? = some (hop.withFills (trade.fillsBefore r i) fills) ∧
        placed.horizontal = route.horizontal := by
  rw [Layout.of, getElem?_placeRoutes] at hroute
  obtain ⟨given, hgiven, rfl⟩ := Option.map_eq_some_iff.1 hroute
  rw [getElem?_placeHops] at hhop
  obtain ⟨inner, hinner, rfl⟩ := Option.map_eq_some_iff.1 hhop
  have hmodified : (trade.withFills r i fills).routes[r]? =
      some { given with hops := given.hops.modify i fun hop => { hop with fills := fills } } := by
    rw [withFills, List.getElem?_modify_eq, hgiven]
    rfl
  have hplaced := getElem?_placeRoutes 0 0 (trade.withFills r i fills).routes r
  rw [hmodified, Option.map_some] at hplaced
  refine ⟨_, hplaced, ?_, ?_⟩
  · -- nothing in front of the hop has changed
    rw [getElem?_placeHops, List.getElem?_modify_eq, hinner, withFills, List.take_modify,
      List.take_modify, List.modify_eq_self (List.length_take_le r _),
      List.modify_eq_self (List.length_take_le i _)]
    simp [fillsBefore, hgiven, PlacedHop.withFills]
  · simp [PlacedRoute.horizontal]

namespace Job

/-- The fills in front of a hop of a job with one adapter for each fill have their
adapters. -/
theorem fillsBefore_lt (hcount : job.adapters.length = job.trade.fills.length)
    (hroute : job.layout.routes[r]? = some route) (hhop : route.hops[i]? = some hop)
    (hfills : 0 < hop.fills.length) : job.trade.fillsBefore r i < job.adapters.length := by
  obtain ⟨placed, hfirst⟩ : ∃ placed, hop.fills[0]? = some placed :=
    ⟨_, List.getElem?_eq_getElem hfills⟩
  have hlt := index_lt_of_mem (List.mem_of_getElem? hroute) (List.mem_of_getElem? hhop)
    (List.mem_of_getElem? hfirst)
  rw [PlacedHop.fills_eq hroute hhop, getElem?_placeFills] at hfirst
  obtain ⟨fill, -, rfl⟩ := Option.map_eq_some_iff.1 hfirst
  rwa [hcount]

/-- The fills in the new order find their own adapters. -/
theorem adapters_shuffle (hstart : job.trade.fillsBefore r i ≤ job.adapters.length) :
    (hop.withFills (job.trade.fillsBefore r i) (order.map (·.1))).adapters
      (job.shuffle r i order).adapters = .ok (order.map (·.2)) := by
  refine PlacedHop.adapters_eq_ok_iff.2 (forall₂_of_getElem? ?_ fun k placed adapter hplaced
    hadapter => ?_)
  · rw [PlacedHop.withFills, length_placeFills, List.length_map, List.length_map]
  · rw [PlacedHop.withFills, getElem?_placeFills] at hplaced
    obtain ⟨fill, -, rfl⟩ := Option.map_eq_some_iff.1 hplaced
    have hk := (List.getElem?_eq_some_iff.1 hadapter).1
    have htake : (job.adapters.take (job.trade.fillsBefore r i)).length =
        job.trade.fillsBefore r i := List.length_take_of_le hstart
    rw [shuffle, List.getElem?_append_left, List.getElem?_append_right, htake,
      Nat.add_sub_cancel_left]
    · exact hadapter
    · rw [htake]
      exact Nat.le_add_right _ _
    · rw [List.length_append, htake]
      exact Nat.add_lt_add_left hk _

/-- At the place of a hop stands its twin, with the fills in the new order. -/
theorem exists_shuffled (hcount : job.adapters.length = job.trade.fills.length)
    (hroute : job.layout.routes[r]? = some route) (hhop : route.hops[i]? = some hop)
    (hfills : 0 < hop.fills.length) (hlength : order.length = hop.fills.length) :
    ∃ placed partner, (job.shuffle r i order).layout.routes[r]? = some placed ∧
      placed.hops[i]? = some partner ∧ placed.horizontal = route.horizontal ∧
      hop.Twin (fun _ _ => True) partner ∧ partner.fills.map (·.fill) = order.map (·.1) ∧
      partner.adapters (job.shuffle r i order).adapters = .ok (order.map (·.2)) := by
  obtain ⟨placed, hplaced, hpartner, hhorizontal⟩ :=
    Trade.exists_placed_withFills hroute hhop (order.map (·.1))
  refine ⟨placed, _, hplaced, hpartner, hhorizontal, ?_, ?_, ?_⟩
  · exact PlacedHop.twin_withFills ((List.length_map _).trans hlength)
  · exact map_fill_placeFills _ _
  · exact adapters_shuffle (Nat.le_of_lt (fillsBefore_lt hcount hroute hhop hfills))

end Job

end

/-! ## The same code in another order -/

/-- The frame has the header of the other one, and a body of the same length. -/
structure Frame.Rearranges (frame other : Frame) : Prop where
  target : other.target = frame.target
  opcode : other.opcode = frame.opcode
  flag : other.flag = frame.flag
  amountOffset : other.amountOffset = frame.amountOffset
  length : other.body.length = frame.body.length

/-- The codes of a hop whose fills stand in two orders, each fill with its adapter. -/
structure HopCode.Shuffles (code other : HopCode) (sites order : List (Fill × Adapter)) :
    Prop where
  /-- Every fill has its part. -/
  lengths : code.parts.length = sites.length ∧ other.parts.length = order.length
  shares : ∀ part ∈ code.parts, part.share.isSome = true
  /-- The part of a fill is the same in both codes. -/
  parts : (order.zip other.parts).Perm (sites.zip code.parts)
  leaves : other.leaves = code.leaves
  branched : other.branch.isSome = code.branch.isSome
  branch : ∀ branch ∈ code.branch, ∀ found ∈ other.branch,
    (branch.frame (codeBytes code.children)).Rearranges
      (found.frame (codeBytes other.children))
  unwrap : other.unwrap = code.unwrap

theorem HopCode.length_children_of_perm {code other : HopCode}
    (h : other.parts.Perm code.parts) :
    (codeBytes other.children).length = (codeBytes code.children).length := by
  rw [children, children, codeBytes_flatMap, codeBytes_flatMap]
  exact (h.flatMap_right _).length_eq

theorem Branch.rearranges {branch found : Branch} {children others : Bytes}
    (hexecutor : found.executor = branch.executor) (hflag : found.flag = branch.flag)
    (hlength : others.length = children.length) :
    (branch.frame children).Rearranges (found.frame others) where
  target := hexecutor
  opcode := rfl
  flag := hflag
  amountOffset := by rw [frame, frame, hflag, length_body, length_body, hlength]
  length := by rw [frame, frame, length_body, length_body, hlength]

namespace Plan

variable {plan other : Plan} {scene : HopScene} {route placed : PlacedRoute}
  {hop partner : PlacedHop} {held : NativeForm} {adapters shuffled : List Adapter}
  {pair : PlacedFill → PlacedFill → Prop} {code rearranged : HopCode}

/-! ## What the fills of a hop are asked together -/

theorem branchFlag?_perm (hperm : shuffled.Perm adapters) :
    plan.branchFlag? hop shuffled = plan.branchFlag? hop adapters := by
  rw [branchFlag?, branchFlag?, hperm.any_eq, hperm.any_eq]

theorem scene_perm (hperm : shuffled.Perm adapters) :
    plan.scene route hop held shuffled = plan.scene route hop held adapters := by
  rw [scene, scene, branchFlag?_perm hperm]

/-! ## The part of one fill -/

/-- The part of a fill that is a share of its hop.  Nothing that stands here depends on the
fills in front of it. -/
def ShareBuilt (plan : Plan) (scene : HopScene) (site : Fill × Adapter) (part : Part) : Prop :=
  plan.PartBuilt scene (scene.wraps site.2 && !scene.wrappedSource) site.1 site.2 part

theorem rightUnique_shareBuilt : Relator.RightUnique (plan.ShareBuilt scene) :=
  fun _ _ _ hpart hsame =>
    Except.ok.inj ((part_eq_ok_iff.2 hpart).symm.trans (part_eq_ok_iff.2 hsame))

/-- Fill by fill, the parts of a hop that is split. -/
theorem HopBuilt.forall₂_shareBuilt (h : plan.HopBuilt route hop held adapters code)
    (hshares : plan.sharesFills hop = true) :
    List.Forall₂ (plan.ShareBuilt (plan.scene route hop held adapters))
      ((hop.fills.map (·.fill)).zip adapters) code.parts := by
  obtain ⟨hadapters, hparts⟩ := h.lengths
  refine forall₂_of_getElem? (by simp [hadapters, hparts]) fun k site part hsite hpart => ?_
  obtain ⟨placed, adapter, here, hplaced, hadapter, _, hhere, hbuilt⟩ := h.part_built hpart
  obtain ⟨hfill, hsame⟩ := List.getElem?_zip_eq_some.1 hsite
  rw [List.getElem?_map, hplaced] at hfill
  rw [hadapter] at hsame
  rw [wrapPlaces_of_shares _ _ hshares, List.getElem?_map, hadapter] at hhere
  rw [ShareBuilt, ← Option.some.inj hfill, ← Option.some.inj hsame]
  rwa [← Option.some.inj hhere] at hbuilt

/-- Every part of such a hop is a share. -/
theorem HopBuilt.isSome_share (h : plan.HopBuilt route hop held adapters code)
    (hshares : plan.sharesFills hop = true) {part : Part} (hpart : part ∈ code.parts) :
    part.share.isSome = true := by
  obtain ⟨site, -, hbuilt⟩ := exists_mem_of_forall₂ (h.forall₂_shareBuilt hshares) hpart
  exact (isSome_of_onlyIf hbuilt.share).trans hshares

/-! ## Two orders of the same fills -/

section

variable (hcarries : plan.Carries other) (htwin : hop.Twin pair partner)
  (hhorizontal : placed.horizontal = route.horizontal)

include hcarries htwin hhorizontal

theorem scene_shuffled (hperm : shuffled.Perm adapters) :
    other.scene placed partner held shuffled =
      (plan.scene route hop held adapters).moved placed.position partner := by
  rw [← scene_perm hperm]
  exact scene_twin hcarries.sameTrade htwin (List.forall₂_same.2 fun _ _ => .refl _ _)
    hhorizontal held

omit hhorizontal in
/-- The branch asks for the same things, and stands around as many bytes. -/
theorem HopBuilt.branch_rearranges (h : plan.HopBuilt route hop held adapters code)
    (hother : other.HopBuilt placed partner held shuffled rearranged)
    (hperm : shuffled.Perm adapters) (hparts : rearranged.parts.Perm code.parts)
    {branch found : Branch} (hbranch : branch ∈ code.branch)
    (hfound : found ∈ rearranged.branch) :
    (branch.frame (codeBytes code.children)).Rearranges
      (found.frame (codeBytes rearranged.children)) := by
  have hflags : other.branchFlag? partner shuffled = plan.branchFlag? hop adapters := by
    rw [branchFlag?_perm hperm]
    exact branchFlag?_twin hcarries.sameTrade htwin (List.forall₂_same.2 fun _ _ => .refl _ _)
  obtain ⟨flag, hflag, hbuilt⟩ := h.branch_built.2 branch hbranch
  obtain ⟨same, hsame, hrebuilt⟩ := hother.branch_built.2 found hfound
  obtain rfl : same = flag := Option.some.inj (hsame.symm.trans (hflags.trans hflag))
  obtain ⟨hexecutor, hchosen, -⟩ := Branch.of_eq_ok_iff.1 (hopBranch_eq_ok_iff.1 hbuilt).1
  obtain ⟨hexecutor', hchosen', -⟩ := Branch.of_eq_ok_iff.1 (hopBranch_eq_ok_iff.1 hrebuilt).1
  refine Branch.rearranges ?_ (hchosen'.trans hchosen.symm)
    (HopCode.length_children_of_perm hparts)
  rw [hexecutor', hexecutor, hcarries.network]

/-- Each fill has the same part in both orders. -/
theorem HopBuilt.parts_perm (h : plan.HopBuilt route hop held adapters code)
    (hother : other.HopBuilt placed partner held shuffled rearranged)
    (hshares : plan.sharesFills hop = true) (hadapters : shuffled.Perm adapters)
    (hperm : ((partner.fills.map (·.fill)).zip shuffled).Perm
      ((hop.fills.map (·.fill)).zip adapters)) :
    (((partner.fills.map (·.fill)).zip shuffled).zip rearranged.parts).Perm
      (((hop.fills.map (·.fill)).zip adapters).zip code.parts) := by
  have hparts := h.forall₂_shareBuilt hshares
  have hothers := hother.forall₂_shareBuilt (by
    rw [sharesFills, hcarries.topology, ← htwin.fills.length_eq]
    exact hshares)
  rw [scene_shuffled hcarries htwin hhorizontal hadapters] at hothers
  -- what a fill has in the one order it has in the other, and it can only have one part
  have hcarried : List.Forall₂ (other.ShareBuilt
      ((plan.scene route hop held adapters).moved placed.position partner))
      ((hop.fills.map (·.fill)).zip adapters) code.parts :=
    hparts.imp fun _ _ hpart => PartBuilt.carried hcarries htwin hpart
  obtain ⟨found, hfound, hzip⟩ := exists_forall₂_of_perm hperm hcarried
  rwa [List.right_unique_forall₂' rightUnique_shareBuilt hothers hfound]

/-- The codes of a hop that compiles with its fills in either order. -/
theorem HopBuilt.shuffles (h : plan.HopBuilt route hop held adapters code)
    (hother : other.HopBuilt placed partner held shuffled rearranged)
    (hshares : plan.sharesFills hop = true)
    (hperm : ((partner.fills.map (·.fill)).zip shuffled).Perm
      ((hop.fills.map (·.fill)).zip adapters)) :
    code.Shuffles rearranged ((hop.fills.map (·.fill)).zip adapters)
      ((partner.fills.map (·.fill)).zip shuffled) := by
  obtain ⟨hadaptersLength, hpartsLength⟩ := h.lengths
  obtain ⟨hshuffledLength, hothersLength⟩ := hother.lengths
  have hlengths : code.parts.length = ((hop.fills.map (·.fill)).zip adapters).length ∧
      rearranged.parts.length = ((partner.fills.map (·.fill)).zip shuffled).length := by
    simp [hadaptersLength, hpartsLength, hshuffledLength, hothersLength]
  have hadapters : shuffled.Perm adapters := by
    have hsecond := hperm.map Prod.snd
    rwa [List.map_snd_zip (by simp [hshuffledLength]),
      List.map_snd_zip (by simp [hadaptersLength])] at hsecond
  have hparts := h.parts_perm hcarries htwin hhorizontal hother hshares hadapters hperm
  have hbare : rearranged.parts.Perm code.parts := by
    have hsecond := hparts.map Prod.snd
    rwa [List.map_snd_zip (Nat.le_of_eq hlengths.2),
      List.map_snd_zip (Nat.le_of_eq hlengths.1)] at hsecond
  refine ⟨hlengths, fun part hpart => h.isSome_share hshares hpart, hparts, ?_, ?_,
    fun branch hbranch found hfound => ?_, ?_⟩
  · rw [hother.leaves, h.leaves, hcarries.network, htwin.destination, hadapters.any_eq,
      hadapters.any_eq]
  · rw [hother.branch_built.1, h.branch_built.1, branches_twin hcarries.sameTrade htwin]
  · exact h.branch_rearranges hcarries htwin hother hadapters hbare hbranch hfound
  · have hunwrap := hother.unwrap
    rw [hcarries.network, htwin.destination, htwin.last, hadapters.any_eq, hadapters.any_eq,
      onlyIf_carried (hcarries.unwrapFrame _) h.unwrap] at hunwrap
    exact (Except.ok.inj hunwrap).symm

end

end Plan

namespace Job

variable {job : Job} {r i : Nat} {route : PlacedRoute} {hop : PlacedHop}
  {order : List (Fill × Adapter)}

/-- Whatever was settled for a trade as a whole, its hops are built with the same things
after the fills of one of them were put into another order. -/
theorem carries_shuffle {plan other : Plan}
    (hjob : other.toJob = plan.toJob.shuffle r i order) : plan.Carries other where
  network := by
    rw [hjob]
    rfl
  topology := by
    rw [Plan.topology, hjob]
    exact Trade.topology_withFills _ _ _ _
  source := by
    rw [hjob]
    rfl
  destination := by
    rw [hjob]
    rfl
  wrapFrame frame h := by
    rw [Plan.wrapFrame_eq_ok_iff, hjob]
    exact Plan.wrapFrame_eq_ok_iff.1 h
  unwrapFrame flag frame h := by
    rw [Plan.unwrapFrame_eq_ok_iff, hjob]
    exact Plan.unwrapFrame_eq_ok_iff.1 h

/-- In a valid trade of more than a single hop, the fills of a hop may be put into any
order, each with its adapter.  Where both orders compile, each fill has the same part in
both, the native asset is left in the same form, and the branch around the parts and the
unwrap behind them are the same up to the order of the parts in the branch.  Whatever was
settled for the two trades as a whole makes no difference. -/
theorem shuffles_of_perm (hcheck : job.check = .ok ()) (hsingle : job.trade.topology ≠ .single)
    (hroute : job.layout.routes[r]? = some route) (hhop : route.hops[i]? = some hop)
    (hfills : 1 < hop.fills.length)
    (horder : order.Perm ((hop.fills.map (·.fill)).zip (job.adaptersAt hop))) :
    ∃ placed partner, (job.shuffle r i order).layout.routes[r]? = some placed ∧
      placed.hops[i]? = some partner ∧ partner.fills.map (·.fill) = order.map (·.1) ∧
      (job.shuffle r i order).adaptersAt partner = order.map (·.2) ∧
      ∀ (plan other : Plan) (held : NativeForm) (code rearranged : HopCode),
        plan.toJob = job → other.toJob = job.shuffle r i order →
        plan.hop route hop held = .ok code → other.hop placed partner held = .ok rearranged →
        code.Shuffles rearranged ((hop.fills.map (·.fill)).zip (job.adaptersAt hop)) order := by
  have hcount : job.adapters.length = job.trade.fills.length :=
    (Trade.check_eq_ok_iff.1 hcheck).2.2.2
  have hfound := adapters_found hcount (List.mem_of_getElem? hroute) (List.mem_of_getElem? hhop)
  have hlength : order.length = hop.fills.length := by
    rw [horder.length_eq, List.length_zip, List.length_map,
      ← (PlacedHop.adapters_eq_ok_iff.1 hfound).length_eq, Nat.min_self]
  obtain ⟨placed, partner, hplaced, hpartner, hhorizontal, htwin, hnames, hshuffled⟩ :=
    exists_shuffled hcount hroute hhop (Nat.zero_lt_of_lt hfills) hlength
  refine ⟨placed, partner, hplaced, hpartner, hnames, adaptersAt_eq hshuffled,
    fun plan other held code rearranged hplan hother hcode hrearranged => ?_⟩
  obtain ⟨adapters, hbuilt⟩ := Plan.hop_eq_ok_iff.1 hcode
  obtain ⟨shuffled, hrebuilt⟩ := Plan.hop_eq_ok_iff.1 hrearranged
  subst hplan
  -- both codes were built from the adapters that the jobs hold for the hop
  obtain rfl : plan.adaptersAt hop = adapters := adaptersAt_eq hbuilt.found
  obtain rfl : order.map (·.2) = shuffled := by
    have hagain := hrebuilt.found
    rw [hother, hshuffled] at hagain
    exact Except.ok.inj hagain
  have hshares : plan.sharesFills hop = true := by
    simp only [Plan.sharesFills, Bool.and_eq_true, bne_iff_ne, decide_eq_true_eq]
    exact ⟨hsingle, hfills⟩
  have hzip : order = (partner.fills.map (·.fill)).zip (order.map (·.2)) :=
    List.zip_of_prod hnames.symm rfl
  have hshuffles := hbuilt.shuffles (carries_shuffle hother) htwin hhorizontal hrebuilt hshares
    (by rwa [← hzip])
  rwa [← hzip] at hshuffles

/-- The fills of the relay's first hop with their adapters, from the last to the first. -/
def relayOrder : List (Fill × Adapter) :=
  [(⟨"second", 50.0, 501, 1⟩, .small 12 501 false false),
    (⟨"first", 50.0, 500, 1⟩, .small 11 500 true false)]

/-- That hop is fanned out by a branch, and an unwrap follows. -/
theorem shuffles_of_perm_relay : ∃ route hop placed partner code rearranged,
    relay.layout.routes[0]? = some route ∧ route.hops[0]? = some hop ∧
      relay.settled.hop route hop .raw = .ok code ∧
      (relay.shuffle 0 0 relayOrder).settled.hop placed partner .raw = .ok rearranged ∧
      code.branch.isSome = true ∧ code.unwrap.isSome = true ∧
      code.Shuffles rearranged relayOrder.reverse relayOrder := by
  let route := relay.layout.routes.get ⟨0, by decide⟩
  let hop := route.hops.get ⟨0, by decide⟩
  let shuffledRoute := (relay.shuffle 0 0 relayOrder).layout.routes.get ⟨0, by decide⟩
  let shuffledHop := shuffledRoute.hops.get ⟨0, by decide⟩
  have hroute : relay.layout.routes[0]? = some route := rfl
  have hhop : route.hops[0]? = some hop := rfl
  have horder : relayOrder.Perm ((hop.fills.map (·.fill)).zip (relay.adaptersAt hop)) :=
    (List.reverse_perm relayOrder).symm
  have hframes : (relay.settled.hop route hop .raw).toOption.any
      (fun code => code.branch.isSome && code.unwrap.isSome) = true := by
    decide +kernel
  obtain ⟨code, hcode, hframes⟩ := (Option.any_eq_true _ _).1 hframes
  obtain ⟨hbranch, hunwrap⟩ := Bool.and_eq_true_iff.1 hframes
  have hcode := eq_ok_of_toOption hcode
  obtain ⟨rearranged, hrearranged⟩ : ∃ rearranged,
      (relay.shuffle 0 0 relayOrder).settled.hop shuffledRoute shuffledHop .raw =
        .ok rearranged :=
    exists_eq_ok_of_isSome (by decide +kernel)
  obtain ⟨placed, partner, hplaced, hpartner, -, -, hshuffles⟩ :=
    shuffles_of_perm (by decide +kernel) (by decide) hroute hhop (by decide) horder
  obtain rfl : shuffledRoute = placed := Option.some.inj hplaced
  obtain rfl : shuffledHop = partner := Option.some.inj hpartner
  exact ⟨route, hop, shuffledRoute, shuffledHop, code, rearranged, hroute, hhop, hcode,
    hrearranged, hbranch, hunwrap, hshuffles _ _ _ _ _ rfl rfl hcode hrearranged⟩

end Job

end SwapCompiler
