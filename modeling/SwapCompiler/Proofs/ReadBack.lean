import SwapCompiler.Proofs.Built.Program
import SwapCompiler.Proofs.Reading.Shape

/-!
# Compiled code is read back by its shape

The shape of a trade's code follows from its plan: from the number of routes,
hops and fills, from what is native, and from what the adapters ask for.
`Plan.shape` derives it without building any code.  A reader that follows this
shape and trusts the declared lengths gets back the compiled program, with no
byte left over at any level, and meets the exchange calls in the order of the
fills.
-/

namespace SwapCompiler

/-! ## The shape of a planned trade -/

namespace Plan

/-- The frames around the call of a fill. -/
def legShape (plan : Plan) (scene : HopScene) (adapter : Adapter) (wrapsHere : Bool) : LegShape :=
  { wrap := wrapsHere
    approve := !plan.network.isNative (plan.soldToken scene adapter)
    unwrap := plan.topology = .single && scene.unwraps adapter
    transfer := scene.hop.last && !adapter.paysRecipient && !scene.nativeDestination }

/-- The code of a hop that is entered with the native asset in the given form. -/
def hopShape (plan : Plan) (route : PlacedRoute) (held : NativeForm) (hop : PlacedHop) :
    HopShape :=
  let adapters := plan.adaptersAt hop
  let scene := plan.scene route hop held adapters
  { shared := plan.sharesFills hop
    legs := (adapters.zip (plan.wrapPlaces scene false adapters)).map fun site =>
      plan.legShape scene site.1 site.2
    branched := plan.branches hop
    unwrap := plan.network.isNative hop.hop.destination && !hop.last &&
      adapters.any (·.wrapsNative) && adapters.any (!·.wrapsNative)
    leaves := if plan.network.isNative hop.hop.destination && adapters.any (·.wrapsNative) &&
      !adapters.any (!·.wrapsNative) then .wrapped else .raw }

/-- The code of the remaining hops of a route. -/
def hopShapes (plan : Plan) (route : PlacedRoute) : NativeForm → List PlacedHop → List HopShape
  | _, [] => []
  | held, hop :: rest =>
      plan.hopShape route held hop ::
        plan.hopShapes route (plan.hopShape route held hop).leaves rest

def routeShape (plan : Plan) (route : PlacedRoute) : RouteShape :=
  { shared := plan.topology = .parallel
    hops := plan.hopShapes route plan.initialForm route.hops
    forward := plan.forwardNative && route.position + 1 = plan.trade.routes.length }

/-- The code of a planned trade: what is shared, what is branched, and which
frames the compiler adds. -/
def shape (plan : Plan) : ProgramShape :=
  { shared := plan.topology = .sequential || (plan.topology = .parallel && plan.rootNative)
    wrap := plan.rootWrap
    branched := plan.topology = .parallel && plan.rootNative
    routes := plan.layout.routes.map plan.routeShape
    unwrap := plan.rootUnwrap
    forward := plan.rootUnwrap }

end Plan

/-! ## Every built part is read back -/

/-- An optional frame that was built so as to fit is read back. -/
theorem Reads.built_frame {needed : Bool} {build : Except Fault Frame} {frame : Option Frame}
    (h : onlyIf needed build = .ok frame) (hfits : ∀ found, build = .ok found → found.Fits) :
    Reads (Reader.frame? needed) (frame.toList.flatMap Frame.bytes) frame :=
  Reads.frame? (isSome_of_onlyIf h) fun found hfound =>
    hfits found ((onlyIf_eq_ok_iff.1 h).2 found hfound)

theorem Share.fits_of_eq_ok {percent : Float} {source : ShareSource} {body : Bytes} {share : Share}
    (h : Share.of percent source body = .ok share) : share.Fits body := by
  obtain ⟨_, hhundredths, hlength, hposition⟩ := Share.of_eq_ok_iff.1 h
  exact ⟨hlength, hposition, hhundredths ▸ Share.hundredthsOf_lt percent⟩

/-- Code behind an optional share that was built for it is read back. -/
theorem Reads.built_share {α : Type} {inner : Reader α} {value : α} {code : List Instruction}
    {needed : Bool} {percent : Float} {source : ShareSource} {share : Option Share}
    (h : onlyIf needed (Share.of percent source (codeBytes code)) = .ok share)
    (hcode : Reads inner (codeBytes code) value) :
    Reads (Reader.shared needed inner) (codeBytes (SwapCompiler.shared share code))
      (share, value) := by
  exact Reads.shared (isSome_of_onlyIf h)
    (fun found hfound => Share.fits_of_eq_ok ((onlyIf_eq_ok_iff.1 h).2 found hfound)) hcode

namespace Plan

variable {plan : Plan} {frame : Frame}

theorem fits_of_wrapFrame (h : plan.wrapFrame = .ok frame) : frame.Fits := by
  obtain ⟨_, _, _, hfits⟩ := wrapFrame_eq_ok_iff.1 h
  exact hfits

theorem fits_of_unwrapFrame {flag : Flag} (h : plan.unwrapFrame flag = .ok frame) :
    frame.Fits := by
  obtain ⟨_, _, _, hfits⟩ := unwrapFrame_eq_ok_iff.1 h
  exact hfits

theorem LegBuilt.reads {scene : HopScene} {wrapsHere : Bool} {fill : Fill} {adapter : Adapter}
    {leg : Leg} (h : plan.LegBuilt scene wrapsHere fill adapter leg) :
    Reads (plan.legShape scene adapter wrapsHere).reader (codeBytes leg.code) leg := by
  have hbytes : codeBytes leg.code =
      leg.wrap.toList.flatMap Frame.bytes ++ (leg.approve.toList.flatMap Frame.bytes ++
        (leg.call.bytes ++ (leg.unwrap.toList.flatMap Frame.bytes ++
          (leg.transfer.toList.flatMap Frame.bytes ++ [])))) := by
    simp [Leg.code, Leg.frames, Instruction.bytes]
  have hchecked : ∀ {build : Except Fault Frame} (found : Frame),
      (build >>= Frame.checked) = .ok found → found.Fits :=
    fun _ hfound => (Frame.bind_checked_eq_ok_iff.1 hfound).2
  rw [hbytes]
  refine (Reads.built_frame h.wrap fun _ => fits_of_wrapFrame).bind ?_
  refine (Reads.built_frame h.approve hchecked).bind ?_
  refine (Frame.reads h.call_fits).bind ?_
  refine (Reads.built_frame h.unwrap fun _ => fits_of_unwrapFrame).bind ?_
  exact (Reads.built_frame h.transfer hchecked).bind (Reads.pure leg)

theorem PartBuilt.reads {scene : HopScene} {wrapsHere : Bool} {fill : Fill} {adapter : Adapter}
    {part : Part} (h : plan.PartBuilt scene wrapsHere fill adapter part) :
    Reads ((plan.legShape scene adapter wrapsHere).partReader (plan.sharesFills scene.hop))
      (codeBytes part.code) part := by
  have hread := Reads.built_share h.share h.leg.reads
  exact hread.map fun found => Part.mk found.1 found.2

section

variable {route : PlacedRoute} {held : NativeForm} {hop : PlacedHop} {code : HopCode}

theorem HopBuilt.leaves_eq {adapters : List Adapter}
    (h : plan.HopBuilt route hop held adapters code) :
    code.leaves = (plan.hopShape route held hop).leaves := by
  rw [h.leaves, hopShape, Job.adaptersAt_eq h.found]

/-- The parts of a hop are read one after the other. -/
theorem HopBuilt.reads_children {adapters : List Adapter}
    (h : plan.HopBuilt route hop held adapters code) :
    Reads (Reader.each ((plan.hopShape route held hop).legs.map
        (LegShape.partReader (plan.hopShape route held hop).shared)))
      (codeBytes code.children) code.parts := by
  rw [HopCode.children, codeBytes_flatMap, hopShape, Job.adaptersAt_eq h.found]
  refine Reads.each ?_
  rw [List.map_map, List.forall₂_map_left_iff]
  refine h.forall₂_partBuilt.imp fun site part hpart => ?_
  obtain ⟨fill, hbuilt⟩ := hpart
  exact hbuilt.reads

theorem HopBuilt.reads {adapters : List Adapter}
    (h : plan.HopBuilt route hop held adapters code) :
    Reads (plan.hopShape route held hop).reader (codeBytes code.code) code := by
  have hbytes : codeBytes code.code =
      codeBytes (branched code.branch code.children) ++
        (code.unwrap.toList.flatMap Frame.bytes ++ []) := by
    simp [HopCode.code]
  obtain ⟨hpresent, hbranch⟩ := h.branch_built
  have hunwrap := h.unwrap
  have hleaves := h.leaves_eq
  rw [← Job.adaptersAt_eq h.found] at hunwrap
  rw [hbytes]
  refine (Reads.branched hpresent (fun branch hmem => ?_) h.reads_children).bind ?_
  -- the branch's frame passed its check, and that covers its children
  · obtain ⟨_, _, hbuilt⟩ := hbranch branch hmem
    exact (hopBranch_eq_ok_iff.1 hbuilt).2
  · refine (Reads.built_frame hunwrap fun _ => fits_of_unwrapFrame).bind ?_
    rw [← hleaves]
    exact Reads.pure code

/-- The hops of a route are read one after the other; what a hop leaves enters
the shape of the next. -/
theorem forall₂_reads_hops {hops : List PlacedHop} {codes : List HopCode}
    (h : plan.hops route held hops = .ok codes) :
    List.Forall₂ (fun reader code => Reads reader (codeBytes code.code) code)
      ((plan.hopShapes route held hops).map HopShape.reader) codes := by
  -- the shape hands on the form that the code leaves, so both walks stay together
  induction hops generalizing held codes with
  | nil =>
      obtain rfl := hops_nil_eq_ok_iff.1 h
      exact .nil
  | cons hop rest ih =>
      obtain ⟨code, later, ⟨adapters, hcode⟩, hlater, rfl⟩ := hops_cons_eq_ok_iff.1 h
      rw [hcode.leaves_eq] at hlater
      exact .cons hcode.reads (ih hlater)

theorem RouteBuilt.reads {part : RoutePart} (h : plan.RouteBuilt route part) :
    Reads (plan.routeShape route).reader (codeBytes part.code) part := by
  have hbytes : codeBytes part.route.code =
      (part.route.hops.flatMap fun code => codeBytes code.code) ++
        (part.route.forward.toList.flatMap Frame.bytes ++ []) := by
    simp [RouteCode.code, codeBytes_flatMap]
  have hcode : Reads (plan.routeShape route).codeReader (codeBytes part.route.code)
      part.route := by
    rw [hbytes]
    refine (Reads.each (forall₂_reads_hops h.hops)).bind ?_
    refine (Reads.built_frame h.forward fun found hfound => ?_).bind (Reads.pure part.route)
    rw [Frame.sendNative_checked_eq_ok_iff.1 hfound]
    exact Frame.sendNative_fits
  have hread := Reads.built_share h.share hcode
  exact hread.map fun found => RoutePart.mk found.1 found.2

end

theorem ProgramBuilt.reads {program : Program} (h : plan.ProgramBuilt program) :
    Reads plan.shape.reader (codeBytes program.code) program := by
  have hroutes : Reads (Reader.each (plan.shape.routes.map RouteShape.reader))
      (codeBytes (routesCode program.routes)) program.routes := by
    rw [routesCode, codeBytes_flatMap, shape, List.map_map]
    exact Reads.each (List.forall₂_map_left_iff.2 (h.routes.imp fun _ _ hroute => hroute.reads))
  have hbytes : codeBytes program.content =
      program.wrap.toList.flatMap Frame.bytes ++
        (codeBytes (branched program.branch (routesCode program.routes)) ++
          (program.unwrap.toList.flatMap Frame.bytes ++
            (program.forward.toList.flatMap Frame.bytes ++ []))) := by
    simp [Program.content]
  have hcontent : Reads plan.shape.contentReader (codeBytes program.content)
      fun share => { program with share := share } := by
    rw [hbytes]
    refine (Reads.built_frame h.wrap fun _ => fits_of_wrapFrame).bind ?_
    refine (Reads.branched (isSome_of_onlyIf h.branch) (fun branch hmem => ?_) hroutes).bind ?_
    · exact (rootBranch_eq_ok_iff.1 ((onlyIf_eq_ok_iff.1 h.branch).2 branch hmem)).2
    refine (Reads.built_frame h.unwrap fun _ => fits_of_unwrapFrame).bind ?_
    refine (Reads.built_frame h.forward fun found hfound => ?_).bind (Reads.pure _)
    rw [Frame.sendNative_checked_eq_ok_iff.1 hfound]
    exact Frame.sendNative_fits
  have hread := Reads.built_share h.share hcontent
  exact hread.map fun found => found.2 found.1

end Plan

end SwapCompiler
