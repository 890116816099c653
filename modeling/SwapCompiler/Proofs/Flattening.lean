import SwapCompiler.Proofs.Connected

/-!
# The layout is the tree, numbered

A layout adds numbers to a trade and nothing else, also where levels of the tree are empty.

* `PlacedHop.erase` and `PlacedRoute.erase` take the numbers away again.
* `Layout.Flattens` says what the layout of a trade must be like: the tree without its
  numbers, fills that are numbered through in reading order, routes and hops that know their
  place, and the hops at both ends of every route.
* `Layout.flattens_of` proves it of the layout of every trade.
-/

namespace SwapCompiler

/-- The hop that was placed, read off from its fills. -/
def PlacedHop.erase (hop : PlacedHop) : Hop :=
  { source := hop.hop.source
    destination := hop.hop.destination
    fills := hop.fills.map (·.fill) }

/-- The route that was placed, read off from its hops. -/
def PlacedRoute.erase (route : PlacedRoute) : Route :=
  { percent := route.route.percent
    hops := route.hops.map PlacedHop.erase }

/-- Every hop of a layout, in order. -/
def Layout.hops (layout : Layout) : List PlacedHop :=
  layout.routes.flatMap (·.hops)

/-- The layout is the tree of the trade with its numbers. -/
structure Layout.Flattens (trade : Trade) (layout : Layout) : Prop where
  /-- Without the numbers it is the tree again, in order. -/
  erased : layout.routes.map PlacedRoute.erase = trade.routes
  /-- What a placed part remembers of the tree agrees with what is below it. -/
  remembered : ∀ route ∈ layout.routes,
    route.route = route.erase ∧ ∀ hop ∈ route.hops, hop.hop = hop.erase
  /-- In reading order, fills are numbered from zero without a gap. -/
  indices : layout.sites.map (·.2.index) = List.range layout.fillCount
  fillCount : layout.fillCount = trade.fills.length
  routePosition : ∀ (r : Nat) route, layout.routes[r]? = some route → route.position = r
  hopPosition : ∀ route ∈ layout.routes, ∀ (i : Nat) hop, route.hops[i]? = some hop →
    hop.position = i ∧ hop.first = decide (i = 0) ∧
      hop.last = decide (i + 1 = route.hops.length)
  /-- The routes that have hops have a first and a last one, and these are collected. -/
  firstHops : List.Forall₂ (fun route hop => route.hops.head? = some hop)
    (layout.routes.filter (!·.hops.isEmpty)) layout.firstHops
  lastHops : List.Forall₂ (fun route hop => route.hops.getLast? = some hop)
    (layout.routes.filter (!·.hops.isEmpty)) layout.lastHops
  /-- They are the hops that know themselves to be first or last. -/
  markedFirst : layout.firstHops = layout.hops.filter (·.first)
  markedLast : layout.lastHops = layout.hops.filter (·.last)

/-! ## Taking the numbers away -/

/-- A placed hop remembers the hop that it was made of. -/
theorem hop_eq_erase_of_mem {index position : Nat} {hops : List Hop} {hop : PlacedHop}
    (hmem : hop ∈ placeHops index position hops) : hop.hop = hop.erase := by
  obtain ⟨i, hi⟩ := List.mem_iff_getElem?.1 hmem
  rw [getElem?_placeHops] at hi
  obtain ⟨found, _, rfl⟩ := Option.map_eq_some_iff.1 hi
  rw [PlacedHop.erase, map_fill_placeFills]

theorem map_erase_placeHops (index position : Nat) (hops : List Hop) :
    (placeHops index position hops).map PlacedHop.erase = hops := by
  induction hops generalizing index position with
  | nil => rfl
  | cons hop rest ih => rw [placeHops, List.map_cons, ih, PlacedHop.erase, map_fill_placeFills]

theorem map_erase_placeRoutes (index position : Nat) (routes : List Route) :
    (placeRoutes index position routes).map PlacedRoute.erase = routes := by
  induction routes generalizing index position with
  | nil => rfl
  | cons route rest ih =>
      rw [placeRoutes, List.map_cons, ih, PlacedRoute.erase, map_erase_placeHops]

/-! ## Both ends of a route -/

/-- What a partial function collects along a list, beside the elements that it is defined
on. -/
theorem forall₂_filterMap {α β : Type} {f : α → Option β} {defined : α → Bool}
    (hdefined : ∀ element, defined element = (f element).isSome) (list : List α) :
    List.Forall₂ (fun element result => f element = some result)
      (list.filter defined) (list.filterMap f) := by
  induction list with
  | nil => exact .nil
  | cons element rest ih =>
      have hhere := hdefined element
      cases hresult : f element with
      | none =>
          rw [hresult, Option.isSome_none] at hhere
          simpa [hhere, hresult] using ih
      | some result =>
          rw [hresult, Option.isSome_some] at hhere
          simpa [hhere, hresult] using ih

section

variable {hops : List PlacedHop}

/-- If exactly the hop in front knows itself to be first, it is the only one to be found. -/
theorem filter_first_eq (h : ∀ (i : Nat) hop, hops[i]? = some hop → hop.first = decide (i = 0)) :
    hops.filter (·.first) = hops.head?.toList := by
  cases hops with
  | nil => rfl
  | cons hop rest =>
      have hfirst : hop.first = true := h 0 hop rfl
      have hrest : rest.filter (·.first) = [] := by
        refine List.filter_eq_nil_iff.2 fun other hmem => ?_
        obtain ⟨i, hi⟩ := List.mem_iff_getElem?.1 hmem
        have hother := h (i + 1) other hi
        simp [hother]
      rw [List.filter_cons_of_pos hfirst, hrest]
      rfl

/-- If exactly the hop at the end knows itself to be last, it is the only one to be found. -/
theorem filter_last_eq
    (h : ∀ (i : Nat) hop, hops[i]? = some hop → hop.last = decide (i + 1 = hops.length)) :
    hops.filter (·.last) = hops.getLast?.toList := by
  rcases List.eq_nil_or_concat hops with rfl | ⟨before, hop, rfl⟩
  · rfl
  · have hlast : hop.last = true := by
      simpa using h before.length hop (by simp)
    have hbefore : before.filter (·.last) = [] := by
      refine List.filter_eq_nil_iff.2 fun other hmem => ?_
      obtain ⟨i, hi⟩ := List.mem_iff_getElem?.1 hmem
      have hlt : i < before.length := (List.getElem?_eq_some_iff.1 hi).1
      have hother := h i other (by rwa [List.concat_eq_append, List.getElem?_append_left hlt])
      rw [hother, List.length_concat]
      simp only [decide_eq_true_eq]
      omega
    rw [List.concat_eq_append, List.filter_append, hbefore, List.filter_cons_of_pos hlast]
    simp

end

namespace Layout

variable {trade : Trade}

/-- The hops of a placed route know their places. -/
theorem place_of_getElem? {route : PlacedRoute} (hroute : route ∈ (Layout.of trade).routes)
    {i : Nat} {hop : PlacedHop} (hhop : route.hops[i]? = some hop) :
    hop.position = i ∧ hop.first = decide (i = 0) ∧
      hop.last = decide (i + 1 = route.hops.length) := by
  obtain ⟨r, hr⟩ := List.mem_iff_getElem?.1 hroute
  obtain ⟨_, _, index, hhops⟩ := placed_of_getElem? hr
  rw [hhops, getElem?_placeHops] at hhop
  obtain ⟨found, _, rfl⟩ := Option.map_eq_some_iff.1 hhop
  simp [hhops]

/-- The layout of a trade is its tree, numbered. -/
theorem flattens_of (trade : Trade) : (Layout.of trade).Flattens trade where
  erased := map_erase_placeRoutes 0 0 trade.routes
  remembered := by
    intro route hroute
    obtain ⟨r, hr⟩ := List.mem_iff_getElem?.1 hroute
    obtain ⟨_, _, index, hhops⟩ := placed_of_getElem? hr
    refine ⟨?_, fun hop hmem => hop_eq_erase_of_mem (hhops ▸ hmem)⟩
    rw [PlacedRoute.erase, hhops, map_erase_placeHops]
  indices := map_index_sites trade
  fillCount := fillCount_eq trade
  routePosition := fun _ _ hr => (placed_of_getElem? hr).1
  hopPosition := fun _ hroute _ _ hhop => place_of_getElem? hroute hhop
  firstHops := forall₂_filterMap (fun route => by cases route.hops <;> rfl) _
  lastHops := forall₂_filterMap (fun route => by cases route.hops <;> simp) _
  markedFirst := by
    rw [Layout.firstHops, Layout.hops, List.filterMap_eq_flatMap_toList, List.filter_flatMap]
    refine List.flatMap_congr fun route hroute => ?_
    exact (filter_first_eq fun _ _ hhop => (place_of_getElem? hroute hhop).2.1).symm
  markedLast := by
    rw [Layout.lastHops, Layout.hops, List.filterMap_eq_flatMap_toList, List.filter_flatMap]
    refine List.flatMap_congr fun route hroute => ?_
    exact (filter_last_eq fun _ _ hhop => (place_of_getElem? hroute hhop).2.2).symm

end Layout

end SwapCompiler
