import SwapCompiler.Proofs.Built.Carried
import SwapCompiler.Proofs.Settled

/-!
# Routes with their adapters

The adapters of a trade stand in one flat list.  A block is a route with those of them
that belong to its fills, so that a trade and its adapters are the list of their blocks.

* `Job.blocks` cuts a job into blocks, and `Job.reorder` puts a job together from any;
  `Job.reorder_blocks` says that the one undoes the other.
* `RouteBlock.forall₂_places` finds each block in the layout: its route is there with fills
  of other numbers, behind which the same adapters stand.
* `Job.adaptersOn_perm` follows the adapters of the first and of the last hops, at which
  the plan looks.
-/

namespace SwapCompiler

/-- A route of a trade with the adapters of its fills. -/
structure RouteBlock where
  route : Route
  adapters : List Adapter
  deriving DecidableEq

namespace RouteBlock

/-- There is one adapter for each fill. -/
def Fits (block : RouteBlock) : Prop :=
  block.adapters.length = countFills block.route.hops

/-- The route, placed as if it were alone. -/
def alone (block : RouteBlock) : PlacedRoute :=
  ⟨0, block.route, placeHops 0 0 block.route.hops⟩

/-- The route of a block stands in a layout with these adapters. -/
structure Places (adapters : List Adapter) (block : RouteBlock) (placed : PlacedRoute) :
    Prop where
  route : placed.route = block.route
  hops : List.Forall₂ (PlacedHop.Alike block.adapters adapters) block.alone.hops placed.hops

theorem Places.horizontal {adapters : List Adapter} {block : RouteBlock} {placed : PlacedRoute}
    (h : block.Places adapters placed) : placed.horizontal = block.alone.horizontal := by
  rw [PlacedRoute.horizontal, PlacedRoute.horizontal, h.hops.length_eq]

/-- Cuts a flat list of adapters into the blocks of some routes. -/
def cut : List Route → List Adapter → List RouteBlock
  | [], _ => []
  | route :: rest, adapters =>
      ⟨route, adapters.take (countFills route.hops)⟩ ::
        cut rest (adapters.drop (countFills route.hops))

theorem map_route_cut (routes : List Route) (adapters : List Adapter) :
    (cut routes adapters).map (·.route) = routes := by
  induction routes generalizing adapters with
  | nil => rfl
  | cons route rest ih => rw [cut, List.map_cons, ih]

/-- Nothing is lost if there is one adapter for each fill. -/
theorem flatMap_adapters_cut {routes : List Route} {adapters : List Adapter}
    (hcount : adapters.length = countRouteFills routes) :
    (cut routes adapters).flatMap (·.adapters) = adapters := by
  induction routes generalizing adapters with
  | nil => exact (List.eq_nil_of_length_eq_zero hcount).symm
  | cons route rest ih =>
      have hrest : (adapters.drop (countFills route.hops)).length = countRouteFills rest := by
        rw [List.length_drop, hcount, countRouteFills]
        omega
      rw [cut, List.flatMap_cons, ih hrest, List.take_append_drop]

theorem fits_of_mem_cut {routes : List Route} {adapters : List Adapter}
    (hcount : adapters.length = countRouteFills routes) :
    ∀ block ∈ cut routes adapters, block.Fits := by
  induction routes generalizing adapters with
  | nil => exact fun _ hmem => nomatch hmem
  | cons route rest ih =>
      have hrest : (adapters.drop (countFills route.hops)).length = countRouteFills rest := by
        rw [List.length_drop, hcount, countRouteFills]
        omega
      intro block hmem
      rcases List.mem_cons.1 hmem with rfl | hlater
      · show (adapters.take (countFills route.hops)).length = countFills route.hops
        rw [List.length_take, hcount, countRouteFills]
        omega
      · exact ih hrest block hlater

theorem length_flatMap_adapters {blocks : List RouteBlock} (hfits : ∀ block ∈ blocks, block.Fits) :
    (blocks.flatMap (·.adapters)).length = countRouteFills (blocks.map (·.route)) := by
  induction blocks with
  | nil => rfl
  | cons block rest ih =>
      have hblock : block.adapters.length = countFills block.route.hops :=
        hfits block List.mem_cons_self
      rw [List.flatMap_cons, List.length_append, List.map_cons, countRouteFills, hblock,
        ih fun other hmem => hfits other (List.mem_cons_of_mem _ hmem)]

/-! ## Blocks in a layout -/

section

variable {given others : List Adapter}

theorem placeFills_alike {fills : List Fill} {i j : Nat}
    (h : ∀ k < fills.length, others[j + k]? = given[i + k]?) :
    List.Forall₂ (PlacedFill.Alike given others) (placeFills i fills) (placeFills j fills) := by
  induction fills generalizing i j with
  | nil => exact .nil
  | cons fill rest ih =>
      refine .cons ⟨rfl, h 0 (Nat.succ_pos _)⟩ (ih fun k hk => ?_)
      have hnext := h (k + 1) (Nat.succ_lt_succ hk)
      rwa [← Nat.add_assoc, ← Nat.add_assoc, Nat.add_right_comm, Nat.add_right_comm i] at hnext

/-- Hops are alike wherever they are placed in front of the same adapters. -/
theorem placeHops_alike {hops : List Hop} {i j position : Nat}
    (h : ∀ k < countFills hops, others[j + k]? = given[i + k]?) :
    List.Forall₂ (PlacedHop.Alike given others) (placeHops i position hops)
      (placeHops j position hops) := by
  induction hops generalizing i j position with
  | nil => exact .nil
  | cons hop rest ih =>
      rw [countFills] at h
      refine .cons ⟨rfl, rfl, placeFills_alike fun k hk => ?_, rfl⟩ (ih fun k hk => ?_)
      · exact h k (by omega)
      · have hnext := h (hop.fills.length + k) (by omega)
        rwa [← Nat.add_assoc, ← Nat.add_assoc] at hnext

end

/-- Every block is placed, in order, in front of its own adapters. -/
theorem forall₂_places {blocks : List RouteBlock} (hfits : ∀ block ∈ blocks, block.Fits)
    (before : List Adapter) (position : Nat) :
    List.Forall₂ (Places (before ++ blocks.flatMap (·.adapters))) blocks
      (placeRoutes before.length position (blocks.map (·.route))) := by
  -- what stands in front of the rest grows by the adapters of the first block
  induction blocks generalizing before position with
  | nil => exact .nil
  | cons block rest ih =>
      have hblock : block.adapters.length = countFills block.route.hops :=
        hfits block List.mem_cons_self
      refine .cons ⟨rfl, placeHops_alike fun k hk => ?_⟩ ?_
      · rw [List.flatMap_cons, List.getElem?_append_right (Nat.le_add_right _ _),
          Nat.add_sub_cancel_left, List.getElem?_append_left (by omega), Nat.zero_add]
      · have hrest := ih (fun other hmem => hfits other (List.mem_cons_of_mem _ hmem))
          (before ++ block.adapters) (position + 1)
        rwa [List.append_assoc, List.length_append, hblock] at hrest

end RouteBlock

namespace Job

variable {job : Job} {order : List RouteBlock}

/-- The routes of a job with their adapters. -/
def blocks (job : Job) : List RouteBlock :=
  RouteBlock.cut job.trade.routes job.adapters

/-- The job with the given routes and their adapters in place of its own. -/
def reorder (job : Job) (order : List RouteBlock) : Job :=
  { job with
    trade := { job.trade with routes := order.map (·.route) }
    adapters := order.flatMap (·.adapters) }

section

variable (hcount : job.adapters.length = job.trade.fills.length)

include hcount

theorem adapters_length_eq : job.adapters.length = countRouteFills job.trade.routes :=
  hcount.trans (Layout.fillCount_eq job.trade).symm

/-- The blocks of a job make up the job. -/
theorem reorder_blocks : job.reorder job.blocks = job := by
  unfold reorder blocks
  rw [RouteBlock.map_route_cut, RouteBlock.flatMap_adapters_cut (adapters_length_eq hcount)]

theorem fits_of_mem_blocks : ∀ block ∈ job.blocks, block.Fits :=
  RouteBlock.fits_of_mem_cut (adapters_length_eq hcount)

end

section

variable (hfits : ∀ block ∈ order, block.Fits)

include hfits

/-- A job that is put together from blocks has one adapter for each fill. -/
theorem adapters_length_reorder :
    (job.reorder order).adapters.length = (job.reorder order).trade.fills.length :=
  (RouteBlock.length_flatMap_adapters hfits).trans (Layout.fillCount_eq (job.reorder order).trade)

theorem forall₂_places_reorder :
    List.Forall₂ (RouteBlock.Places (job.reorder order).adapters) order
      (job.reorder order).layout.routes :=
  RouteBlock.forall₂_places hfits [] 0

end

/-! ## First and last hops -/

/-- The adapters of one hop of each route, which is chosen by the number of hops. -/
def adaptersOn (job : Job) (place : Nat → Nat) : List Adapter :=
  job.layout.routes.flatMap fun route =>
    (route.hops[place route.hops.length]?).toList.flatMap job.adaptersAt

theorem firstAdapters_eq (job : Job) : job.firstAdapters = job.adaptersOn fun _ => 0 := by
  unfold firstAdapters adaptersOn Layout.firstHops
  rw [List.filterMap_eq_flatMap_toList, List.flatMap_assoc]
  simp only [List.head?_eq_getElem?]

theorem lastAdapters_eq (job : Job) : job.lastAdapters = job.adaptersOn (· - 1) := by
  unfold lastAdapters adaptersOn Layout.lastHops
  rw [List.filterMap_eq_flatMap_toList, List.flatMap_assoc]
  simp only [List.getLast?_eq_getElem?]

end Job

/-- Alike hops have the same adapters, as far as they were given. -/
theorem PlacedHop.Alike.filterMap_eq {given others : List Adapter} {hop other : PlacedHop}
    (h : hop.Alike given others other) :
    (other.fills.filterMap fun placed => others[placed.index]?) =
      hop.fills.filterMap fun placed => given[placed.index]? := by
  have hfills := h.fills
  generalize hop.fills = fills at hfills
  generalize other.fills = partners at hfills
  induction hfills with
  | nil => rfl
  | cons halike _ ih => rw [List.filterMap_cons, List.filterMap_cons, halike.2, ih]

namespace RouteBlock

/-- The adapters of one hop of a block. -/
def adaptersOn (place : Nat → Nat) (block : RouteBlock) : List Adapter :=
  (block.alone.hops[place block.alone.hops.length]?).toList.flatMap fun hop =>
    hop.fills.filterMap fun placed => block.adapters[placed.index]?

theorem Places.adaptersOn_eq {job : Job} {block : RouteBlock} {placed : PlacedRoute}
    (h : block.Places job.adapters placed) (place : Nat → Nat) :
    ((placed.hops[place placed.hops.length]?).toList.flatMap job.adaptersAt) =
      block.adaptersOn place := by
  unfold adaptersOn
  rw [← h.hops.length_eq]
  cases hhop : block.alone.hops[place block.alone.hops.length]? with
  | none =>
      have hnone : placed.hops[place block.alone.hops.length]? = none := by
        rw [List.getElem?_eq_none_iff] at hhop ⊢
        rwa [← h.hops.length_eq]
      rw [hnone]
      rfl
  | some hop =>
      obtain ⟨other, hother, halike⟩ := exists_rel_of_forall₂ h.hops hhop
      rw [hother]
      show job.adaptersAt other ++ [] = _ ++ []
      rw [Job.adaptersAt, halike.filterMap_eq]

end RouteBlock

/-- What is collected along one of two lists can be collected along the other. -/
theorem flatMap_eq_of_forall₂ {α β γ : Type} {first : List α} {second : List β} {f : α → List γ}
    {g : β → List γ} (h : List.Forall₂ (fun a b => g b = f a) first second) :
    second.flatMap g = first.flatMap f := by
  induction h with
  | nil => rfl
  | cons hhead _ ih => rw [List.flatMap_cons, List.flatMap_cons, hhead, ih]

namespace Job

variable {job : Job} {order blocks : List RouteBlock}

theorem adaptersOn_reorder (hfits : ∀ block ∈ order, block.Fits) (place : Nat → Nat) :
    (job.reorder order).adaptersOn place = order.flatMap (RouteBlock.adaptersOn place) :=
  flatMap_eq_of_forall₂ ((forall₂_places_reorder hfits).imp fun _ _ h => h.adaptersOn_eq place)

/-- The first and the last hops of reordered routes are reordered with them. -/
theorem adaptersOn_perm (job : Job) (hfits : ∀ block ∈ blocks, block.Fits)
    (horder : order.Perm blocks) (place : Nat → Nat) :
    ((job.reorder order).adaptersOn place).Perm ((job.reorder blocks).adaptersOn place) := by
  rw [adaptersOn_reorder hfits, adaptersOn_reorder fun block hmem =>
    hfits block (horder.mem_iff.1 hmem)]
  exact horder.flatMap_right _

end Job

end SwapCompiler
