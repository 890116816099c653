import SwapCompiler.Compile.Plan
import SwapCompiler.Proofs.Outcome
import SwapCompiler.Validity

/-!
# Where the layout puts the parts of a trade

Each numbering of the layout is described by one equation on list positions, so
that no later proof walks along a numbering again.

* `getElem?_placeFills`, `getElem?_placeHops`, `getElem?_placeRoutes` say what
  stands at a position, and that nothing stands behind the end.
* `Layout.sites` lists every fill with its hop, in reading order; the fills are
  those of the trade, numbered from zero without a gap.
* `Job.adaptersAt` looks up the adapters of a hop.
-/

namespace SwapCompiler

theorem getElem?_placeFills (index : Nat) (fills : List Fill) (k : Nat) :
    (placeFills index fills)[k]? = fills[k]?.map fun fill => ⟨index + k, fill⟩ := by
  induction fills generalizing index k with
  | nil => rfl
  | cons fill rest ih =>
      cases k with
      | zero => rfl
      | succ k => simp [placeFills, ih, Nat.add_assoc, Nat.add_comm 1]

/-- The hop at a position knows its place among the hops of its route. -/
theorem getElem?_placeHops (index position : Nat) (hops : List Hop) (k : Nat) :
    (placeHops index position hops)[k]? = hops[k]?.map fun hop =>
      { position := position + k
        first := position + k = 0
        last := k + 1 = hops.length
        hop := hop
        fills := placeFills (index + countFills (hops.take k)) hop.fills } := by
  induction hops generalizing index position k with
  | nil => rfl
  | cons hop rest ih =>
      cases k with
      | zero => cases rest <;> simp [placeHops, countFills]
      | succ k => simp [placeHops, countFills, ih, Nat.add_assoc, Nat.add_comm 1]

theorem getElem?_placeRoutes (index position : Nat) (routes : List Route) (k : Nat) :
    (placeRoutes index position routes)[k]? = routes[k]?.map fun route =>
      ⟨position + k, route,
        placeHops (index + countRouteFills (routes.take k)) 0 route.hops⟩ := by
  induction routes generalizing index position k with
  | nil => rfl
  | cons route rest ih =>
      cases k with
      | zero => simp [placeRoutes, countRouteFills]
      | succ k => simp [placeRoutes, countRouteFills, ih, Nat.add_assoc, Nat.add_comm 1]

@[simp] theorem length_placeFills (index : Nat) (fills : List Fill) :
    (placeFills index fills).length = fills.length := by
  induction fills generalizing index with
  | nil => rfl
  | cons fill rest ih => simp [placeFills, ih]

@[simp] theorem length_placeHops (index position : Nat) (hops : List Hop) :
    (placeHops index position hops).length = hops.length := by
  induction hops generalizing index position with
  | nil => rfl
  | cons hop rest ih => simp [placeHops, ih]

@[simp] theorem length_placeRoutes (index position : Nat) (routes : List Route) :
    (placeRoutes index position routes).length = routes.length := by
  induction routes generalizing index position with
  | nil => rfl
  | cons route rest ih => simp [placeRoutes, ih]

/-! ## Fills in reading order -/

theorem map_fill_placeFills (index : Nat) (fills : List Fill) :
    (placeFills index fills).map (·.fill) = fills := by
  induction fills generalizing index with
  | nil => rfl
  | cons fill rest ih => simp [placeFills, ih]

theorem map_index_placeFills (index : Nat) (fills : List Fill) :
    (placeFills index fills).map (·.index) = List.range' index fills.length := by
  induction fills generalizing index with
  | nil => rfl
  | cons fill rest ih => simp [placeFills, ih, List.range'_succ]

/-- Every fill of some hops with its hop, in order. -/
def hopSites (hops : List PlacedHop) : List (PlacedHop × PlacedFill) :=
  hops.flatMap fun hop => hop.fills.map fun fill => (hop, fill)

theorem map_fill_hopSites (index position : Nat) (hops : List Hop) :
    (hopSites (placeHops index position hops)).map (·.2.fill) = hops.flatMap (·.fills) := by
  induction hops generalizing index position with
  | nil => rfl
  | cons hop rest ih =>
      have hfills := map_fill_placeFills index hop.fills
      simp only [hopSites] at ih ⊢
      simp [placeHops, Function.comp_def, hfills, ih]

theorem map_index_hopSites (index position : Nat) (hops : List Hop) :
    (hopSites (placeHops index position hops)).map (·.2.index) =
      List.range' index (countFills hops) := by
  induction hops generalizing index position with
  | nil => rfl
  | cons hop rest ih =>
      have hindices := map_index_placeFills index hop.fills
      simp only [hopSites] at ih ⊢
      simp [placeHops, Function.comp_def, hindices, ih, countFills]

namespace Layout

/-- Every fill of a trade with its hop, in route, hop, fill order. -/
def sites (layout : Layout) : List (PlacedHop × PlacedFill) :=
  layout.routes.flatMap fun route => hopSites route.hops

theorem mem_sites_iff {layout : Layout} {site : PlacedHop × PlacedFill} :
    site ∈ layout.sites ↔
      ∃ route ∈ layout.routes, site.1 ∈ route.hops ∧ site.2 ∈ site.1.fills := by
  obtain ⟨hop, placed⟩ := site
  simp [sites, hopSites]

/-- The sites hold the fills of the trade, in order. -/
theorem map_fill_sites (trade : Trade) :
    (Layout.of trade).sites.map (·.2.fill) = trade.fills := by
  have hwalk : ∀ (index position : Nat) (routes : List Route),
      ((placeRoutes index position routes).flatMap fun route => hopSites route.hops).map
        (·.2.fill) = routes.flatMap fun route => route.hops.flatMap (·.fills) := by
    intro index position routes
    induction routes generalizing index position with
    | nil => rfl
    | cons route rest ih =>
        simp only [placeRoutes, List.flatMap_cons, List.map_append, map_fill_hopSites, ih]
  exact hwalk 0 0 trade.routes

/-- The fills are numbered from zero, without a gap. -/
theorem map_index_sites (trade : Trade) :
    (Layout.of trade).sites.map (·.2.index) = List.range (Layout.of trade).fillCount := by
  -- the numbers of one route continue where those of the route before end
  have hwalk : ∀ (index position : Nat) (routes : List Route),
      ((placeRoutes index position routes).flatMap fun route => hopSites route.hops).map
        (·.2.index) = List.range' index (countRouteFills routes) := by
    intro index position routes
    induction routes generalizing index position with
    | nil => rfl
    | cons route rest ih =>
        simp only [placeRoutes, List.flatMap_cons, List.map_append, map_index_hopSites, ih,
          countRouteFills, List.range'_append_1]
  rw [List.range_eq_range']
  exact hwalk 0 0 trade.routes

theorem length_sites (trade : Trade) :
    (Layout.of trade).sites.length = (Layout.of trade).fillCount := by
  have hlength := congrArg List.length (map_index_sites trade)
  simpa using hlength

/-- The number of fills is that of the tree. -/
theorem fillCount_eq (trade : Trade) : (Layout.of trade).fillCount = trade.fills.length := by
  rw [← length_sites, ← map_fill_sites, List.length_map]

/-- The fill at a place carries the number of that place. -/
theorem index_of_getElem?_sites {trade : Trade} {k : Nat} {site : PlacedHop × PlacedFill}
    (h : (Layout.of trade).sites[k]? = some site) : site.2.index = k := by
  have hindex : ((Layout.of trade).sites.map (·.2.index))[k]? = some site.2.index := by
    simp [h]
  rw [map_index_sites, List.getElem?_range] at hindex
  · exact (Option.some.inj hindex).symm
  · rw [← length_sites]
    exact (List.getElem?_eq_some_iff.1 h).1

/-- So a number belongs to one site only. -/
theorem eq_of_index_eq {trade : Trade} {site other : PlacedHop × PlacedFill}
    (hsite : site ∈ (Layout.of trade).sites) (hother : other ∈ (Layout.of trade).sites)
    (h : other.2.index = site.2.index) : other = site := by
  obtain ⟨k, hk⟩ := List.mem_iff_getElem?.1 hsite
  obtain ⟨i, hi⟩ := List.mem_iff_getElem?.1 hother
  rw [index_of_getElem?_sites hk, index_of_getElem?_sites hi] at h
  rw [h, hk] at hi
  exact (Option.some.inj hi).symm

end Layout

/-! ## Adapters of a hop -/

/-- The adapters of a hop's fills, in order, as far as they were given. -/
def Job.adaptersAt (job : Job) (hop : PlacedHop) : List Adapter :=
  hop.fills.filterMap fun placed => job.adapters[placed.index]?

/-- A hop's adapters are found exactly if each of its fills has one. -/
theorem PlacedHop.adapters_eq_ok_iff {hop : PlacedHop} {given adapters : List Adapter} :
    hop.adapters given = .ok adapters ↔
      List.Forall₂ (fun placed adapter => given[placed.index]? = some adapter)
        hop.fills adapters := by
  rw [PlacedHop.adapters, mapM_eq_ok_iff]
  have hone : ∀ (placed : PlacedFill) (adapter : Adapter),
      placed.adapter given = .ok adapter ↔ given[placed.index]? = some adapter := by
    intro placed adapter
    cases h : given[placed.index]? <;> simp [PlacedFill.adapter, h]
  simp only [hone]

theorem Job.adaptersAt_eq {job : Job} {hop : PlacedHop} {adapters : List Adapter}
    (h : hop.adapters job.adapters = .ok adapters) : job.adaptersAt hop = adapters := by
  have hfound := PlacedHop.adapters_eq_ok_iff.1 h
  unfold Job.adaptersAt
  generalize hop.fills = fills at hfound
  clear h
  induction hfound with
  | nil => rfl
  | cons hhead _ ih => simp [hhead, ih]

end SwapCompiler
