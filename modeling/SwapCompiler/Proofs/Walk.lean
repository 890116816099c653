import SwapCompiler.Proofs.Built.Program
import SwapCompiler.Proofs.Causes

/-!
# What stops a walk of the compiler

The compiler walks along the routes, hops and fills of a trade.  What stops it has stopped
one of its steps, behind steps that have succeeded.

* `Plan.Reaches` says that the compiler comes to a hop.  In a route that compiles it comes
  to every hop, and builds it: `Plan.reaches_of_hops` and `Plan.Reaches.hopBuilt`.
* `Plan.LegSteps`, `Plan.HopSteps`, `Plan.RouteSteps` and `Plan.ProgramSteps` list the steps
  of each level that may fail, each with what is known when it is taken.  If all of them
  fail only for causes of one sort, then so does the level: that is their `failsOnly`.
-/

namespace SwapCompiler

namespace Plan

variable {plan : Plan} {sort : Fault → Prop} {route : PlacedRoute} {hop : PlacedHop}
  {held : NativeForm} {adapters : List Adapter}

/-- The compiler comes to a hop with native asset in the given form: the hops in front
of it have compiled, and have left it so. -/
def Reaches (plan : Plan) (route : PlacedRoute) (hop : PlacedHop) (held : NativeForm) : Prop :=
  ∃ i codes, route.hops[i]? = some hop ∧
    plan.hops route plan.initialForm (route.hops.take i) = .ok codes ∧
    held = entered plan.initialForm codes i

theorem Reaches.mem (h : plan.Reaches route hop held) : hop ∈ route.hops := by
  obtain ⟨i, _, hhop, _⟩ := h
  exact List.mem_of_getElem? hhop

/-! ## Walks along lists -/

/-- What stops the parts of a hop has stopped one of them. -/
theorem parts_failsOnly {scene : HopScene} {served : Bool}
    {sites : List (PlacedFill × Adapter)}
    (h : ∀ site ∈ sites, ∀ before, FailsOnly sort
      (plan.part scene (plan.wrapsAt scene before site.2) site.1.fill site.2)) :
    FailsOnly sort (plan.parts scene served sites) := by
  induction sites generalizing served with
  | nil => exact .ok []
  | cons site rest ih =>
      obtain ⟨placed, adapter⟩ := site
      refine (h (placed, adapter) List.mem_cons_self served).bind fun part _ => ?_
      refine (ih fun other hmem => h other (List.mem_cons_of_mem _ hmem)).bind fun later _ => ?_
      exact .ok (part :: later)

/-- What the hop at a position is entered with does not depend on how the list of codes
is cut. -/
theorem entered_cons (held : NativeForm) (first : HopCode) {codes : List HopCode} {i : Nat}
    (hi : i ≤ codes.length) :
    entered held (first :: codes) (i + 1) = entered first.leaves codes i := by
  cases i with
  | zero => rfl
  | succ i =>
      have hcode : codes[i]? = some codes[i] := List.getElem?_eq_getElem hi
      simp [entered, hcode]

/-- What stops the hops of a route has stopped one of them, behind hops that have
compiled. -/
theorem hops_failsOnly {hops : List PlacedHop}
    (h : ∀ i hop codes, hops[i]? = some hop → plan.hops route held (hops.take i) = .ok codes →
      FailsOnly sort (plan.hop route hop (entered held codes i))) :
    FailsOnly sort (plan.hops route held hops) := by
  induction hops generalizing held with
  | nil => exact .ok []
  | cons first rest ih =>
      refine (h 0 first [] rfl rfl).bind fun code hcode => ?_
      refine (ih fun i hop codes hhop hcodes => ?_).bind fun later _ => .ok (code :: later)
      -- the hops that have compiled are one more, seen from the front of the route
      have hfront : plan.hops route held ((first :: rest).take (i + 1)) = .ok (code :: codes) :=
        bind_eq_ok_iff.2 ⟨code, hcode, bind_eq_ok_iff.2 ⟨codes, hcodes, rfl⟩⟩
      have hlength : i ≤ codes.length := by
        have hi : i < rest.length := (List.getElem?_eq_some_iff.1 hhop).1
        rw [length_hops hcodes, List.length_take]
        omega
      rw [← entered_cons held code hlength]
      exact h (i + 1) hop (code :: codes) hhop hfront

/-! ## Walks that come to their end -/

/-- The hops in front of a place have the codes in front of it. -/
theorem hops_take {hops : List PlacedHop} {codes : List HopCode}
    (h : plan.hops route held hops = .ok codes) (i : Nat) :
    plan.hops route held (hops.take i) = .ok (codes.take i) := by
  induction hops generalizing held codes i with
  | nil =>
      obtain rfl := hops_nil_eq_ok_iff.1 h
      simpa using h
  | cons first rest ih =>
      obtain ⟨code, hcode, h⟩ := bind_eq_ok_iff.1 h
      obtain ⟨later, hlater, h⟩ := bind_eq_ok_iff.1 h
      obtain rfl := Except.ok.inj h
      cases i with
      | zero => rfl
      | succ i =>
          exact bind_eq_ok_iff.2 ⟨code, hcode, bind_eq_ok_iff.2 ⟨_, ih hlater i, rfl⟩⟩

theorem entered_take (held : NativeForm) (codes : List HopCode) (i : Nat) :
    entered held (codes.take i) i = entered held codes i := by
  cases i with
  | zero => rfl
  | succ i => simp [entered]

section

variable {codes : List HopCode} (h : plan.hops route plan.initialForm route.hops = .ok codes)

include h

/-- The compiler comes to every hop of a route that compiles. -/
theorem reaches_of_hops {i : Nat} (hhop : route.hops[i]? = some hop) :
    plan.Reaches route hop (entered plan.initialForm codes i) :=
  ⟨i, codes.take i, hhop, hops_take h i, (entered_take _ _ _).symm⟩

/-- Where it comes to, it builds the hop. -/
theorem Reaches.hopBuilt (hreached : plan.Reaches route hop held) :
    ∃ code, plan.HopBuilt route hop held (plan.adaptersAt hop) code := by
  obtain ⟨i, before, hhop, hbefore, rfl⟩ := hreached
  obtain rfl := Except.ok.inj ((hops_take h i).symm.trans hbefore)
  obtain ⟨code, adapters, _, hbuilt⟩ := exists_hopBuilt_of_hops h hhop
  rw [entered_take]
  obtain rfl : plan.adaptersAt hop = adapters := Job.adaptersAt_eq hbuilt.found
  exact ⟨code, hbuilt⟩

end

/-! ## The steps of each level -/

/-- The steps that build the frames of a fill fail only so. -/
structure LegSteps (plan : Plan) (sort : Fault → Prop) (scene : HopScene) (here : Bool)
    (fill : Fill) (adapter : Adapter) : Prop where
  wrap : here = true → FailsOnly sort plan.wrapFrame
  approve : plan.network.isNative (plan.soldToken scene adapter) = false →
    FailsOnly sort (Frame.approve (plan.soldToken scene adapter) adapter.allowee
      fill.sourceAmount >>= Frame.checked)
  call : ∀ cause, (plan.call scene fill adapter).frame = .error cause →
    sort (cause.locate ⟨fill.exchange, scene.hop.position, scene.route⟩)
  call_checked : ∀ frame, (plan.call scene fill adapter).frame = .ok frame →
    FailsOnly sort frame.checked
  unwrap : plan.topology = .single → scene.unwraps adapter = true →
    FailsOnly sort (plan.unwrapFrame Frame.unwrapFlag)
  transfer : (scene.hop.last && !adapter.paysRecipient && !scene.nativeDestination) = true →
    FailsOnly sort (Frame.transfer scene.hop.hop.destination plan.network.router
      fill.destinationAmount >>= Frame.checked)

theorem LegSteps.failsOnly {scene : HopScene} {here : Bool} {fill : Fill} {adapter : Adapter}
    (h : plan.LegSteps sort scene here fill adapter) :
    FailsOnly sort (plan.leg scene here fill adapter) := by
  refine (FailsOnly.onlyIf h.wrap).bind fun _ _ => ?_
  refine (FailsOnly.onlyIf fun hsold => h.approve ?_).bind fun _ _ => ?_
  · rwa [Bool.not_eq_true'] at hsold
  refine (FailsOnly.mapError h.call).bind fun call hcall => ?_
  refine (h.call_checked call (mapError_eq_ok_iff.1 hcall)).bind fun _ _ => ?_
  refine (FailsOnly.onlyIf fun hunwraps => ?_).bind fun _ _ => ?_
  · rw [Bool.and_eq_true, decide_eq_true_eq] at hunwraps
    exact h.unwrap hunwraps.1 hunwraps.2
  exact (FailsOnly.onlyIf h.transfer).bind fun _ _ => .ok _

/-- The steps that build a hop from its adapters fail only so. -/
structure HopSteps (plan : Plan) (sort : Fault → Prop) (route : PlacedRoute) (hop : PlacedHop)
    (held : NativeForm) (adapters : List Adapter) : Prop where
  combination :
    FailsOnly sort (plan.checkCombination (plan.scene route hop held adapters) adapters)
  leg : ∀ placed ∈ hop.fills, ∀ adapter ∈ adapters, plan.adapters[placed.index]? = some adapter →
    ∀ served, plan.LegSteps sort (plan.scene route hop held adapters)
      (plan.wrapsAt (plan.scene route hop held adapters) served adapter) placed.fill adapter
  share : ∀ fill, ∀ adapter ∈ adapters, ∀ served leg,
    plan.checkCombination (plan.scene route hop held adapters) adapters = .ok () →
    plan.LegBuilt (plan.scene route hop held adapters)
      (plan.wrapsAt (plan.scene route hop held adapters) served adapter) fill adapter leg →
    FailsOnly sort (Share.of fill.percent
      (plan.fillSource (plan.scene route hop held adapters) adapter) (codeBytes leg.code))
  branch : ∀ parts flag,
    plan.parts (plan.scene route hop held adapters) false (hop.fills.zip adapters) = .ok parts →
    plan.branchFlag? hop adapters = some flag →
    FailsOnly sort (plan.hopBranch (plan.scene route hop held adapters) flag
      (codeBytes (parts.flatMap Part.code)))
  unwrap : (plan.network.isNative hop.hop.destination && !hop.last &&
      adapters.any (·.wrapsNative) && adapters.any (!·.wrapsNative)) = true →
    FailsOnly sort (plan.unwrapFrame Frame.midRouteUnwrapFlag)

theorem hop_failsOnly_of_steps (hadapters : FailsOnly sort (hop.adapters plan.adapters))
    (h : ∀ adapters, hop.adapters plan.adapters = .ok adapters →
      plan.HopSteps sort route hop held adapters) :
    FailsOnly sort (plan.hop route hop held) := by
  refine hadapters.bind fun adapters hfound => ?_
  have hsteps := h adapters hfound
  obtain ⟨_, hgiven⟩ := List.forall₂_iff_zip.1 (PlacedHop.adapters_eq_ok_iff.1 hfound)
  refine hsteps.combination.bind fun _ hcombination => ?_
  refine (parts_failsOnly fun site hsite served => ?_).bind fun parts hparts => ?_
  · obtain ⟨hplaced, hadapter⟩ := List.of_mem_zip hsite
    refine (hsteps.leg site.1 hplaced site.2 hadapter (hgiven hsite) served).failsOnly.bind
      fun leg hleg => ?_
    have hshare := hsteps.share site.1.fill site.2 hadapter served leg hcombination
      (leg_eq_ok_iff.1 hleg)
    exact (FailsOnly.onlyIf fun _ => hshare).bind fun _ _ => .ok _
  · refine FailsOnly.bind ?_ fun _ _ => (FailsOnly.onlyIf hsteps.unwrap).bind fun _ _ => .ok _
    unfold hopBranch?
    split
    · next flag hflag => exact (hsteps.branch parts flag hparts hflag).map
    · exact .ok none

/-- The steps that build a route and its share fail only so. -/
structure RouteSteps (plan : Plan) (sort : Fault → Prop) (route : PlacedRoute) : Prop where
  hop : ∀ hop held, plan.Reaches route hop held → FailsOnly sort (plan.hop route hop held)
  share : ∀ code, plan.route route = .ok code →
    FailsOnly sort (Share.of route.route.percent plan.routeSource (codeBytes code.code))

theorem RouteSteps.failsOnly (h : plan.RouteSteps sort route) :
    FailsOnly sort (plan.routePart route) := by
  have hhops : FailsOnly sort (plan.hops route plan.initialForm route.hops) :=
    hops_failsOnly fun i hop codes hi hcodes => h.hop hop _ ⟨i, codes, hi, hcodes, rfl⟩
  have hforward : FailsOnly sort Frame.sendNative.checked :=
    .of_eq_ok (Frame.sendNative_checked_eq_ok_iff.2 rfl)
  refine FailsOnly.bind ?_ fun code hcode => ?_
  · exact hhops.bind fun hops _ => (FailsOnly.onlyIf fun _ => hforward).bind fun _ _ => .ok _
  · exact (FailsOnly.onlyIf fun _ => h.share code hcode).bind fun _ _ => .ok _

/-- The steps that build the code of a trade fail only so. -/
structure ProgramSteps (plan : Plan) (sort : Fault → Prop) : Prop where
  route : ∀ route ∈ plan.layout.routes, plan.RouteSteps sort route
  branch : ∀ parts, plan.routes = .ok parts → plan.topology = .parallel →
    plan.rootNative = true → FailsOnly sort (plan.rootBranch (codeBytes (routesCode parts)))
  wrap : plan.rootWrap = true → FailsOnly sort plan.wrapFrame
  unwrap : plan.rootUnwrap = true → FailsOnly sort (plan.unwrapFrame Frame.unwrapFlag)
  share : ∀ program : Program, plan.routes = .ok program.routes →
    onlyIf (plan.topology = .parallel && plan.rootNative)
      (plan.rootBranch (codeBytes (routesCode program.routes))) = .ok program.branch →
    onlyIf plan.rootWrap plan.wrapFrame = .ok program.wrap →
    onlyIf plan.rootUnwrap (plan.unwrapFrame Frame.unwrapFlag) = .ok program.unwrap →
    onlyIf plan.rootUnwrap Frame.sendNative.checked = .ok program.forward →
    (plan.topology = .sequential ∨ (plan.topology = .parallel ∧ plan.rootNative = true)) →
    FailsOnly sort (Share.of 100.0 .whole (codeBytes program.content))

theorem ProgramSteps.failsOnly (h : plan.ProgramSteps sort) : FailsOnly sort plan.program := by
  have hroutes : FailsOnly sort plan.routes :=
    .mapM fun route hmem => (h.route route hmem).failsOnly
  have hforward : FailsOnly sort Frame.sendNative.checked :=
    .of_eq_ok (Frame.sendNative_checked_eq_ok_iff.2 rfl)
  refine hroutes.bind fun parts hparts => ?_
  refine (FailsOnly.onlyIf fun hneeded => ?_).bind fun branch hbranch => ?_
  · rw [Bool.and_eq_true, decide_eq_true_eq] at hneeded
    exact h.branch parts hparts hneeded.1 hneeded.2
  refine (FailsOnly.onlyIf h.wrap).bind fun wrap hwrap => ?_
  refine (FailsOnly.onlyIf h.unwrap).bind fun unwrap hunwrap => ?_
  refine (FailsOnly.onlyIf fun _ => hforward).bind fun forward hsent => ?_
  refine (FailsOnly.onlyIf fun hneeded => ?_).bind fun _ _ => .ok _
  rw [Bool.or_eq_true, Bool.and_eq_true, decide_eq_true_eq, decide_eq_true_eq] at hneeded
  exact h.share ⟨wrap, branch, parts, unwrap, forward, none⟩ hparts hbranch hwrap hunwrap hsent
    hneeded

end Plan

end SwapCompiler
