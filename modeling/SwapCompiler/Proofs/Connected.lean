import SwapCompiler.Proofs.Checks

/-!
# What a valid trade looks like

A trade that passes its check is a full tree whose hops lead from the token that
the trade sells to the token that it buys.

* `Trade.Connected` says this without the checks.
* `Trade.connected_of_check` gets it from them.
* `PlacedRoute.Connected` says the same of a route of the layout, where hops
  also know their place.
-/

namespace SwapCompiler

/-- No level of the tree is empty, and every route leads from the trade's source
to its destination, each hop selling what the hop before it bought. -/
structure Trade.Connected (trade : Trade) : Prop where
  routes_ne_nil : trade.routes ≠ []
  hops_ne_nil : ∀ route ∈ trade.routes, route.hops ≠ []
  fills_ne_nil : ∀ route ∈ trade.routes, ∀ hop ∈ route.hops, hop.fills ≠ []
  starts : ∀ route ∈ trade.routes, ∀ hop ∈ route.hops.head?, hop.source = trade.source
  ends : ∀ route ∈ trade.routes, ∀ hop ∈ route.hops.getLast?,
    hop.destination = trade.destination
  links : ∀ route ∈ trade.routes,
    route.hops.IsChain fun hop next => hop.destination = next.source

/-- A trade that passes its check is connected and has an adapter for each
fill. -/
theorem Trade.connected_of_check {trade : Trade} {adapterCount : Nat}
    (h : trade.check adapterCount = .ok ()) :
    trade.Connected ∧ adapterCount = trade.fills.length := by
  obtain ⟨hshares, hpaths, _, hcount⟩ := check_eq_ok_iff.1 h
  obtain ⟨hroutes, _, hfull⟩ := checkShares_eq_ok_iff.1 hshares
  have hleads := checkPaths_eq_ok_iff.1 hpaths
  refine ⟨?_, hcount⟩
  exact
    { routes_ne_nil := hroutes
      hops_ne_nil := fun route hmem => (hfull route hmem).1
      fills_ne_nil := fun route hmem hop hhop => ((hfull route hmem).2 hop hhop).1
      starts := fun route hmem => (hleads route hmem).starts
      ends := fun route hmem => (hleads route hmem).ends
      links := fun route hmem => (hleads route hmem).links }

/-- A placed route leads through the tokens of a trade, and its hops know where
they stand. -/
structure PlacedRoute.Connected (trade : Trade) (route : PlacedRoute) : Prop where
  hops_ne_nil : route.hops ≠ []
  first : ∀ {i : Nat} {hop : PlacedHop}, route.hops[i]? = some hop → hop.first = decide (i = 0)
  last : ∀ {i : Nat} {hop : PlacedHop}, route.hops[i]? = some hop →
    hop.last = decide (i + 1 = route.hops.length)
  fills_ne_nil : ∀ {i : Nat} {hop : PlacedHop}, route.hops[i]? = some hop → hop.fills ≠ []
  starts : ∀ {hop : PlacedHop}, route.hops[0]? = some hop → hop.hop.source = trade.source
  ends : ∀ {hop : PlacedHop}, route.hops.getLast? = some hop →
    hop.hop.destination = trade.destination
  link : ∀ {i : Nat} {hop next : PlacedHop}, route.hops[i]? = some hop →
    route.hops[i + 1]? = some next → hop.hop.destination = next.hop.source

/-- The route at a position of the layout is the route at that position of the
trade, with its hops in place. -/
theorem Layout.placed_of_getElem? {trade : Trade} {r : Nat} {placed : PlacedRoute}
    (h : (Layout.of trade).routes[r]? = some placed) :
    placed.position = r ∧ trade.routes[r]? = some placed.route ∧
      ∃ index, placed.hops = placeHops index 0 placed.route.hops := by
  rw [Layout.of, getElem?_placeRoutes] at h
  obtain ⟨route, hroute, rfl⟩ := Option.map_eq_some_iff.1 h
  exact ⟨Nat.zero_add r, hroute, _, rfl⟩

theorem Trade.Connected.placed {trade : Trade} (h : trade.Connected) {placed : PlacedRoute}
    (hmem : placed ∈ (Layout.of trade).routes) : placed.Connected trade := by
  obtain ⟨r, hr⟩ := List.mem_iff_getElem?.1 hmem
  obtain ⟨_, hroute, index, hhops⟩ := Layout.placed_of_getElem? hr
  have hroutes : placed.route ∈ trade.routes := List.mem_of_getElem? hroute
  -- a hop of the layout is a hop of the trade, at the same position
  have hhop : ∀ {i : Nat} {hop : PlacedHop}, placed.hops[i]? = some hop →
      placed.route.hops[i]? = some hop.hop ∧ hop.first = decide (i = 0) ∧
        hop.last = decide (i + 1 = placed.hops.length) ∧
          hop.fills.length = hop.hop.fills.length := by
    intro i hop hi
    rw [hhops, getElem?_placeHops] at hi
    obtain ⟨found, hfound, rfl⟩ := Option.map_eq_some_iff.1 hi
    simp [hfound, hhops]
  have hlength : placed.hops.length = placed.route.hops.length := by
    rw [hhops, length_placeHops]
  constructor
  · intro hnil
    refine h.hops_ne_nil _ hroutes (List.eq_nil_of_length_eq_zero ?_)
    rw [← hlength, hnil]
    rfl
  · intro i hop hi
    exact (hhop hi).2.1
  · intro i hop hi
    exact (hhop hi).2.2.1
  · intro i hop hi hnil
    have hfills := (hhop hi).2.2.2
    rw [hnil] at hfills
    exact h.fills_ne_nil _ hroutes _ (List.mem_of_getElem? (hhop hi).1)
      (List.eq_nil_of_length_eq_zero hfills.symm)
  · intro hop hi
    refine h.starts _ hroutes hop.hop ?_
    rw [List.head?_eq_getElem?]
    exact (hhop hi).1
  · intro hop hi
    rw [List.getLast?_eq_getElem?] at hi
    refine h.ends _ hroutes hop.hop ?_
    rw [List.getLast?_eq_getElem?, ← hlength]
    exact (hhop hi).1
  · intro i hop next hi hnext
    have hchain := h.links _ hroutes
    rw [List.isChain_iff_getElem] at hchain
    obtain ⟨hlt, hnextEq⟩ := List.getElem?_eq_some_iff.1 (hhop hnext).1
    obtain ⟨_, hhopEq⟩ := List.getElem?_eq_some_iff.1 (hhop hi).1
    rw [← hhopEq, ← hnextEq]
    exact hchain i hlt

/-- A trade of a single hop has nothing else. -/
theorem Trade.topology_eq_single_iff {trade : Trade} :
    trade.topology = .single ↔ ∃ route hop, trade.routes = [route] ∧ route.hops = [hop] := by
  unfold Trade.topology
  constructor
  · intro h
    split at h
    · next route hroutes =>
        split at h
        · next hone =>
            obtain ⟨hop, hhops⟩ := List.length_eq_one_iff.1 hone
            exact ⟨route, hop, hroutes, hhops⟩
        · exact nomatch h
    · exact nomatch h
  · rintro ⟨route, hop, hroutes, hhops⟩
    simp [hroutes, hhops]

/-- Every route of a trade of a single hop has one hop. -/
theorem Layout.length_hops_of_single {trade : Trade} (hsingle : trade.topology = .single)
    {placed : PlacedRoute} (hplaced : placed ∈ (Layout.of trade).routes) :
    placed.hops.length = 1 := by
  obtain ⟨route, hop, hroutes, hhops⟩ := Trade.topology_eq_single_iff.1 hsingle
  obtain ⟨r, hr⟩ := List.mem_iff_getElem?.1 hplaced
  obtain ⟨_, hroute, index, hplacedHops⟩ := Layout.placed_of_getElem? hr
  have hsame : placed.route = route := by
    have hmem := List.mem_of_getElem? hroute
    rwa [hroutes, List.mem_singleton] at hmem
  rw [hplacedHops, length_placeHops, hsame, hhops]
  rfl

/-- In a trade of a single hop, every site is of the hop that ends the trade. -/
theorem Trade.Connected.destination_of_single {trade : Trade} (h : trade.Connected)
    (hsingle : trade.topology = .single) {site : PlacedHop × PlacedFill}
    (hsite : site ∈ (Layout.of trade).sites) :
    site.1.hop.destination = trade.destination := by
  obtain ⟨placed, hplaced, hhop, _⟩ := Layout.mem_sites_iff.1 hsite
  obtain ⟨only, honly⟩ := List.length_eq_one_iff.1 (Layout.length_hops_of_single hsingle hplaced)
  rw [honly, List.mem_singleton] at hhop
  refine (h.placed hplaced).ends ?_
  rw [honly, hhop]
  rfl

end SwapCompiler
