import SwapCompiler.Proofs.ReadBack

/-!
# The exchange calls of a compiled trade

A compiled trade holds one leg for each fill of the trade, in route, hop, fill
order, and each leg serves its fill: it calls what the adapter of that fill says,
and the frames around the call are those that the call needs.

* `Program.legs` lists the legs in reading order.
* `Plan.Serves` says what a leg has to do with its fill and its adapter.
* `Plan.Packed` says where shares and branches stand around the legs.
* `Job.readEnvelope_bytecode` reads the bytecode back by its shape and finds
  such a leg at every place.
-/

namespace SwapCompiler

/-- The legs of a hop, in order. -/
def HopCode.legs (hop : HopCode) : List Leg :=
  hop.parts.map (·.leg)

/-- The legs of a route, in order. -/
def RouteCode.legs (route : RouteCode) : List Leg :=
  route.hops.flatMap HopCode.legs

/-- All legs of a program, in reading order. -/
def Program.legs (program : Program) : List Leg :=
  program.routes.flatMap fun part => part.route.legs

/-- The token that an exchange deals with where its hop names this one. -/
def Network.dealt (network : Network) (adapter : Adapter) (token : Address) : Address :=
  if network.isNative token && adapter.wrapsNative then network.wrapped else token

namespace Plan

/-- A leg serves a fill of a hop through the fill's adapter. -/
structure Serves (plan : Plan) (hop : PlacedHop) (fill : Fill) (adapter : Adapter)
    (leg : Leg) : Prop where
  target : leg.call.target = adapter.target
  opcode : leg.call.opcode = adapter.opcode
  returnPosition : leg.call.returnPosition = adapter.returnPosition.getD 0
  /-- The calldata is called as given, or with the word of the token that the
  exchange delivers behind it. -/
  body : leg.call.body = adapter.calldata ∨
    leg.call.body =
      adapter.calldata ++ (plan.network.dealt adapter hop.hop.destination).word
  /-- The call is preceded by an allowance for the token that the exchange
  takes, unless it takes native asset. -/
  approve :
    leg.approve.isSome = !plan.network.isNative (plan.network.dealt adapter hop.hop.source) ∧
      ∀ frame ∈ leg.approve,
        Frame.approve (plan.network.dealt adapter hop.hop.source) adapter.allowee
          fill.sourceAmount = .ok frame
  /-- In a trade of a single hop, wrapped native asset that was bought is
  unwrapped behind the call. -/
  unwrap :
    leg.unwrap.isSome = (plan.topology = .single &&
        plan.network.isNative hop.hop.destination && adapter.wrapsNative) ∧
      ∀ frame ∈ leg.unwrap, plan.unwrapFrame Frame.unwrapFlag = .ok frame
  /-- What a last hop buys is sent to the router, unless it is native asset or
  the exchange has sent it already. -/
  transfer :
    leg.transfer.isSome =
        (hop.last && !adapter.paysRecipient && !plan.network.isNative hop.hop.destination) ∧
      ∀ frame ∈ leg.transfer,
        Frame.transfer hop.hop.destination plan.network.router fill.destinationAmount = .ok frame

variable {plan : Plan} {route : PlacedRoute} {hop : PlacedHop} {held : NativeForm}

theorem LegBuilt.serves {adapters : List Adapter} {here : Bool} {fill : Fill}
    {adapter : Adapter} {leg : Leg}
    (h : plan.LegBuilt (plan.scene route hop held adapters) here fill adapter leg) :
    plan.Serves hop fill adapter leg := by
  obtain ⟨_, _, hcall⟩ := Call.frame_eq_ok_iff.1 h.call
  obtain ⟨happrove, happroves⟩ := onlyIf_eq_ok_iff.1 h.approve
  obtain ⟨htransfer, htransfers⟩ := onlyIf_eq_ok_iff.1 h.transfer
  obtain ⟨hunwrap, hunwraps⟩ := onlyIf_eq_ok_iff.1 h.unwrap
  have hchecked : ∀ {build : Except Fault Frame} {frame : Frame},
      (build >>= Frame.checked) = .ok frame → build = .ok frame :=
    fun hbuild => (Frame.bind_checked_eq_ok_iff.1 hbuild).1
  constructor
  · rw [hcall]
    rfl
  · rw [hcall]
    rfl
  · rw [hcall]
    rfl
  · rw [hcall]
    simp only [Call.body]
    split
    · exact .inr rfl
    · exact .inl rfl
  · exact ⟨happrove, fun frame hframe => hchecked (happroves frame hframe)⟩
  · rw [HopScene.unwraps, ← Bool.and_assoc] at hunwrap
    exact ⟨hunwrap, hunwraps⟩
  · exact ⟨htransfer, fun frame hframe => hchecked (htransfers frame hframe)⟩

/-- A fill at its place has an adapter, and the leg serves it. -/
def ServesSite (plan : Plan) (site : PlacedHop × PlacedFill) (leg : Leg) : Prop :=
  ∃ adapter, plan.adapters[site.2.index]? = some adapter ∧
    plan.Serves site.1 site.2.fill adapter leg

theorem HopBuilt.forall₂_serves {adapters : List Adapter} {code : HopCode}
    (h : plan.HopBuilt route hop held adapters code) :
    List.Forall₂ plan.ServesSite (hop.fills.map fun fill => (hop, fill)) code.legs := by
  rw [HopCode.legs, List.forall₂_map_left_iff, List.forall₂_map_right_iff]
  refine forall₂_of_getElem? h.lengths.2.symm fun k placed part hplaced hpart => ?_
  obtain ⟨found, adapter, here, hfound, _, hadapter, _, hbuilt⟩ := h.part_built hpart
  obtain rfl : found = placed := Option.some.inj (hfound.symm.trans hplaced)
  exact ⟨adapter, hadapter, hbuilt.leg.serves⟩

theorem RouteBuilt.forall₂_serves {part : RoutePart} (h : plan.RouteBuilt route part) :
    List.Forall₂ plan.ServesSite (hopSites route.hops) part.route.legs := by
  refine List.rel_flatMap (forall₂_hopBuilt h.hops) fun hop code hbuilt => ?_
  obtain ⟨held, adapters, hcode⟩ := hbuilt
  exact hcode.forall₂_serves

theorem ProgramBuilt.forall₂_serves {program : Program} (h : plan.ProgramBuilt program) :
    List.Forall₂ plan.ServesSite plan.layout.sites program.legs :=
  List.rel_flatMap h.routes fun _ _ hroute => hroute.forall₂_serves

theorem ProgramBuilt.length_legs {program : Program} (h : plan.ProgramBuilt program) :
    program.legs.length = plan.trade.fills.length := by
  rw [← h.forall₂_serves.length_eq, ← Layout.fillCount_eq]
  exact Layout.length_sites plan.trade

/-- The leg at a place serves the fill at that place through the adapter at that
place. -/
theorem ProgramBuilt.serves_at {program : Program} (h : plan.ProgramBuilt program) {k : Nat}
    {leg : Leg} (hleg : program.legs[k]? = some leg) :
    ∃ hop fill adapter, plan.layout.sites[k]? = some (hop, ⟨k, fill⟩) ∧
      plan.trade.fills[k]? = some fill ∧ plan.adapters[k]? = some adapter ∧
      plan.Serves hop fill adapter leg := by
  have hlegs := h.forall₂_serves
  obtain ⟨hk, _⟩ := List.getElem?_eq_some_iff.1 hleg
  rw [← hlegs.length_eq] at hk
  obtain ⟨⟨hop, placed⟩, hsite⟩ : ∃ site, plan.layout.sites[k]? = some site :=
    ⟨_, List.getElem?_eq_getElem hk⟩
  -- fills are numbered without a gap, so the fill's adapter stands at its place
  obtain rfl : placed.index = k := Layout.index_of_getElem?_sites hsite
  obtain ⟨adapter, hadapter, hserves⟩ := rel_of_forall₂ hlegs hsite hleg
  refine ⟨hop, placed.fill, adapter, hsite, ?_, hadapter, hserves⟩
  rw [← Layout.map_fill_sites, List.getElem?_map]
  exact congrArg (Option.map (·.2.fill)) hsite

/-- The code of a hop is packed: a branch fans it out if the plan says so, and its
parts are shares if it is split. -/
structure HopPacked (plan : Plan) (hop : PlacedHop) (code : HopCode) : Prop where
  branch : code.branch.isSome = plan.branches hop
  shares : ∀ part ∈ code.parts, part.share.isSome = plan.sharesFills hop

/-- The code of a route is packed: parallel routes are shares. -/
structure RoutePacked (plan : Plan) (route : PlacedRoute) (part : RoutePart) : Prop where
  share : part.share.isSome = decide (plan.topology = .parallel)
  hops : List.Forall₂ plan.HopPacked route.hops part.route.hops

/-- The code of a trade is packed: one share holds all of it unless it is a single
hop or plain parallel routes, and a branch fans out to parallel routes whose native
asset is wrapped or unwrapped as a whole. -/
structure Packed (plan : Plan) (program : Program) : Prop where
  share : program.share.isSome =
    (plan.topology = .sequential ||
      (plan.topology = .parallel && (plan.rootWrap || plan.rootUnwrap)))
  branch : program.branch.isSome =
    (plan.topology = .parallel && (plan.rootWrap || plan.rootUnwrap))
  routes : List.Forall₂ plan.RoutePacked plan.layout.routes program.routes

theorem HopBuilt.packed {adapters : List Adapter} {code : HopCode}
    (h : plan.HopBuilt route hop held adapters code) : plan.HopPacked hop code := by
  refine ⟨h.branch_built.1, fun part hmem => ?_⟩
  obtain ⟨k, hk⟩ := List.mem_iff_getElem?.1 hmem
  obtain ⟨_, _, _, _, _, _, _, hbuilt⟩ := h.part_built hk
  exact isSome_of_onlyIf hbuilt.share

theorem RouteBuilt.packed {part : RoutePart} (h : plan.RouteBuilt route part) :
    plan.RoutePacked route part := by
  refine ⟨isSome_of_onlyIf h.share, (forall₂_hopBuilt h.hops).imp fun hop code hcode => ?_⟩
  obtain ⟨held, adapters, hbuilt⟩ := hcode
  exact hbuilt.packed

theorem ProgramBuilt.packed {program : Program} (h : plan.ProgramBuilt program) :
    plan.Packed program :=
  ⟨isSome_of_onlyIf h.share, isSome_of_onlyIf h.branch,
    h.routes.imp fun _ _ hroute => hroute.packed⟩

end Plan

/-- Bytecode starts with the word 32 and with its own length.  Followed by the
shape of the trade alone, it is read to its end at every level; what is read is
packed as the plan says and has one leg for each fill, and the leg at a place serves
the fill at that place through the adapter at that place. -/
theorem Job.readEnvelope_bytecode {job : Job} {data : Bytes} (h : job.bytecode = .ok data) :
    data.take 32 = Bytes.word 32 ∧ (data.drop 32).take 32 = Bytes.word data.length ∧
      job.adapters.length = job.trade.fills.length ∧
      ∃ (plan : Plan) (program : Program), Plan.of job = .ok plan ∧
        readEnvelope plan.shape.reader data = some program ∧ plan.Packed program ∧
        program.legs.length = job.trade.fills.length ∧
        ∀ (k : Nat) (leg : Leg), program.legs[k]? = some leg →
          ∃ hop fill adapter, job.layout.sites[k]? = some (hop, ⟨k, fill⟩) ∧
            job.trade.fills[k]? = some fill ∧ job.adapters[k]? = some adapter ∧
            plan.Serves hop fill adapter leg := by
  obtain ⟨program, hcompile, rfl⟩ := map_eq_ok_iff.1 h
  obtain ⟨hcheck, plan, hplan, hbuilt⟩ := Job.compile_eq_ok_iff.1 hcompile
  obtain ⟨rfl, _⟩ := Plan.settled_of_eq_ok hplan
  have hlength : program.bytes.length = (codeBytes program.code).length + 64 :=
    length_envelope _
  refine ⟨?_, ?_, (Trade.connected_of_check hcheck).2, plan, program, hplan,
    readEnvelope_envelope hbuilt.reads, hbuilt.packed, hbuilt.length_legs,
    fun k leg => hbuilt.serves_at⟩
  · simp [Program.bytes, envelope]
  · rw [hlength]
    simp [Program.bytes, envelope]

/-- A network whose addresses are the numbers from one to four. -/
def Network.small : Network :=
  { executor := .ofNat 1
    router := .ofNat 2
    native := .ofNat 3
    wrapped := .ofNat 4 }

/-- An adapter with an amount in its calldata. -/
def Adapter.small (target amount : Nat) (wrapsNative paysRecipient : Bool) : Adapter :=
  { target := .ofNat target
    calldata := [1, 2, 3, 4] ++ Bytes.word amount
    wrapsNative := wrapsNative
    paysRecipient := paysRecipient
    namesDestination := false
    special := none
    spender := none
    returnPosition := none }

/-- Native asset is sold along two routes; the second hop of the first route is
split between two exchanges. -/
def Job.sale : Job :=
  { trade :=
      { source := .ofNat 3
        destination := .ofNat 5
        sourceAmount := 1000
        destinationAmount := 5
        routes :=
          [⟨50.0, [⟨.ofNat 3, .ofNat 6, [⟨"first", 100.0, 500, 1⟩]⟩,
              ⟨.ofNat 6, .ofNat 5, [⟨"second", 50.0, 300, 1⟩, ⟨"third", 50.0, 301, 2⟩]⟩]⟩,
            ⟨50.0, [⟨.ofNat 3, .ofNat 5, [⟨"fourth", 100.0, 500, 2⟩]⟩]⟩] }
    adapters := [.small 11 500 true false, .small 12 300 true false, .small 13 301 false true,
      .small 14 500 true false]
    wrapCalls := some ⟨some [5, 6, 7, 8], none⟩
    network := .small }

theorem Job.readEnvelope_bytecode_sale : ∃ data, sale.bytecode = .ok data ∧
    ∃ (plan : Plan) (program : Program), Plan.of sale = .ok plan ∧
      readEnvelope plan.shape.reader data = some program ∧ program.legs.length = 4 := by
  obtain ⟨data, hdata⟩ : ∃ data, sale.bytecode = .ok data :=
    exists_eq_ok_of_isSome (by decide +kernel)
  obtain ⟨_, _, _, plan, program, hplan, hread, _, hlegs, _⟩ := readEnvelope_bytecode hdata
  exact ⟨data, hdata, plan, program, hplan, hread, hlegs⟩

end SwapCompiler
