import SwapCompiler.Compile.Route
import SwapCompiler.Proofs.Built.Header

/-!
# What built hops are made of

`Plan.LegBuilt`, `Plan.PartBuilt` and `Plan.HopBuilt` state, part by part, what
the compiler put there and under which condition.  Building succeeds with some
code exactly if the code is made so; nothing later opens the builders again.

The fills of a hop are walked with one bit of state, whether a wrap has already
served the hop.  `Plan.wrapPlaces` is that walk without any code.
-/

namespace SwapCompiler

namespace Plan

/-- The frames of a fill: each stands there exactly if it is needed. -/
structure LegBuilt (plan : Plan) (scene : HopScene) (wrapsHere : Bool) (fill : Fill)
    (adapter : Adapter) (leg : Leg) : Prop where
  wrap : onlyIf wrapsHere plan.wrapFrame = .ok leg.wrap
  approve :
    onlyIf (!plan.network.isNative (plan.soldToken scene adapter))
      (Frame.approve (plan.soldToken scene adapter) adapter.allowee fill.sourceAmount >>=
        Frame.checked) = .ok leg.approve
  call : (plan.call scene fill adapter).frame = .ok leg.call
  call_fits : leg.call.Fits
  unwrap :
    onlyIf (plan.topology = .single && scene.unwraps adapter)
      (plan.unwrapFrame Frame.unwrapFlag) = .ok leg.unwrap
  transfer :
    onlyIf (scene.hop.last && !adapter.paysRecipient && !scene.nativeDestination)
      (Frame.transfer scene.hop.hop.destination plan.network.router fill.destinationAmount >>=
        Frame.checked) = .ok leg.transfer

/-- A fill's leg, and its share where the hop is split. -/
structure PartBuilt (plan : Plan) (scene : HopScene) (wrapsHere : Bool) (fill : Fill)
    (adapter : Adapter) (part : Part) : Prop where
  leg : plan.LegBuilt scene wrapsHere fill adapter part.leg
  share :
    onlyIf (plan.sharesFills scene.hop)
      (Share.of fill.percent (plan.fillSource scene adapter) (codeBytes part.leg.code)) =
        .ok part.share

/-- A wrap stands in front of this fill, given whether one has already served
the hop. -/
def wrapsAt (plan : Plan) (scene : HopScene) (wrapped : Bool) (adapter : Adapter) : Bool :=
  scene.wraps adapter && !scene.wrappedSource && (plan.sharesFills scene.hop || !wrapped)

/-- In front of which fills a wrap stands. -/
def wrapPlaces (plan : Plan) (scene : HopScene) : Bool → List Adapter → List Bool
  | _, [] => []
  | wrapped, adapter :: rest =>
      plan.wrapsAt scene wrapped adapter ::
        plan.wrapPlaces scene (wrapped || plan.wrapsAt scene wrapped adapter) rest

/-- The code of a hop with these adapters. -/
structure HopBuilt (plan : Plan) (route : PlacedRoute) (hop : PlacedHop) (held : NativeForm)
    (adapters : List Adapter) (code : HopCode) : Prop where
  found : hop.adapters plan.adapters = .ok adapters
  combination : plan.checkCombination (plan.scene route hop held adapters) adapters = .ok ()
  parts :
    plan.parts (plan.scene route hop held adapters) false (hop.fills.zip adapters) =
      .ok code.parts
  branch :
    plan.hopBranch? (plan.scene route hop held adapters) adapters (codeBytes code.children) =
      .ok code.branch
  unwrap :
    onlyIf (plan.network.isNative hop.hop.destination && !hop.last &&
        adapters.any (·.wrapsNative) && adapters.any (!·.wrapsNative))
      (plan.unwrapFrame Frame.midRouteUnwrapFlag) = .ok code.unwrap
  leaves : code.leaves =
    if plan.network.isNative hop.hop.destination && adapters.any (·.wrapsNative) &&
        !adapters.any (!·.wrapsNative) then .wrapped else .raw

section

variable {plan : Plan} {scene : HopScene} {wrapsHere : Bool} {fill : Fill} {adapter : Adapter}

theorem leg_eq_ok_iff {leg : Leg} :
    plan.leg scene wrapsHere fill adapter = .ok leg ↔
      plan.LegBuilt scene wrapsHere fill adapter leg := by
  constructor
  · intro h
    obtain ⟨wrap, hwrap, h⟩ := bind_eq_ok_iff.1 h
    obtain ⟨approve, happrove, h⟩ := bind_eq_ok_iff.1 h
    obtain ⟨call, hcall, h⟩ := bind_eq_ok_iff.1 h
    obtain ⟨_, hchecked, h⟩ := bind_eq_ok_iff.1 h
    obtain ⟨unwrap, hunwrap, h⟩ := bind_eq_ok_iff.1 h
    obtain ⟨transfer, htransfer, h⟩ := bind_eq_ok_iff.1 h
    obtain rfl := Except.ok.inj h
    obtain ⟨hfits, rfl⟩ := Frame.checked_eq_ok_iff.1 hchecked
    exact ⟨hwrap, happrove, mapError_eq_ok_iff.1 hcall, hfits, hunwrap, htransfer⟩
  · intro h
    refine bind_eq_ok_iff.2 ⟨_, h.wrap, bind_eq_ok_iff.2 ⟨_, h.approve, ?_⟩⟩
    refine bind_eq_ok_iff.2 ⟨_, mapError_eq_ok_iff.2 h.call, ?_⟩
    refine bind_eq_ok_iff.2 ⟨_, Frame.checked_eq_ok_iff.2 ⟨h.call_fits, rfl⟩, ?_⟩
    exact bind_eq_ok_iff.2 ⟨_, h.unwrap, bind_eq_ok_iff.2 ⟨_, h.transfer, rfl⟩⟩

theorem part_eq_ok_iff {part : Part} :
    plan.part scene wrapsHere fill adapter = .ok part ↔
      plan.PartBuilt scene wrapsHere fill adapter part := by
  constructor
  · intro h
    obtain ⟨leg, hleg, h⟩ := bind_eq_ok_iff.1 h
    obtain ⟨share, hshare, h⟩ := bind_eq_ok_iff.1 h
    obtain rfl := Except.ok.inj h
    exact ⟨leg_eq_ok_iff.1 hleg, hshare⟩
  · intro h
    exact bind_eq_ok_iff.2 ⟨_, leg_eq_ok_iff.2 h.leg, bind_eq_ok_iff.2 ⟨_, h.share, rfl⟩⟩

/-- The parts of a hop, each with the wrap that its place asks for. -/
theorem parts_eq_ok_iff {wrapped : Bool} {fills : List PlacedFill} {adapters : List Adapter}
    (hlength : fills.length = adapters.length) {parts : List Part} :
    plan.parts scene wrapped (fills.zip adapters) = .ok parts ↔
      List.Forall₂ (fun site part =>
          plan.PartBuilt scene site.2 site.1.1.fill site.1.2 part)
        ((fills.zip adapters).zip (plan.wrapPlaces scene wrapped adapters)) parts := by
  -- the bit of state varies along the walk, and the places of wraps follow it
  induction adapters generalizing wrapped fills parts with
  | nil =>
      simp only [List.zip_nil_right, wrapPlaces, List.forall₂_nil_left_iff]
      exact ⟨fun h => (Except.ok.inj h).symm, fun h => h ▸ rfl⟩
  | cons adapter rest ih =>
      obtain ⟨placed, others, rfl⟩ := List.exists_cons_of_length_eq_add_one hlength
      have hrest : others.length = rest.length := by simpa using hlength
      simp only [List.zip_cons_cons, wrapPlaces, List.forall₂_cons_left_iff]
      constructor
      · intro h
        obtain ⟨first, hfirst, h⟩ := bind_eq_ok_iff.1 h
        obtain ⟨later, hlater, h⟩ := bind_eq_ok_iff.1 h
        exact ⟨first, later, part_eq_ok_iff.1 hfirst, (ih hrest).1 hlater,
          (Except.ok.inj h).symm⟩
      · rintro ⟨first, later, hfirst, hlater, rfl⟩
        exact bind_eq_ok_iff.2 ⟨first, part_eq_ok_iff.2 hfirst,
          bind_eq_ok_iff.2 ⟨later, (ih hrest).2 hlater, rfl⟩⟩

end

section

variable {plan : Plan} {route : PlacedRoute} {hop : PlacedHop} {held : NativeForm}

theorem hop_eq_ok_iff {code : HopCode} :
    plan.hop route hop held = .ok code ↔
      ∃ adapters, plan.HopBuilt route hop held adapters code := by
  constructor
  · intro h
    obtain ⟨adapters, hadapters, h⟩ := bind_eq_ok_iff.1 h
    obtain ⟨_, hcombination, h⟩ := bind_eq_ok_iff.1 h
    obtain ⟨parts, hparts, h⟩ := bind_eq_ok_iff.1 h
    obtain ⟨branch, hbranch, h⟩ := bind_eq_ok_iff.1 h
    obtain ⟨unwrap, hunwrap, h⟩ := bind_eq_ok_iff.1 h
    obtain rfl := Except.ok.inj h
    exact ⟨adapters, hadapters, hcombination, hparts, hbranch, hunwrap, rfl⟩
  · rintro ⟨adapters, h⟩
    refine bind_eq_ok_iff.2 ⟨_, h.found, bind_eq_ok_iff.2 ⟨_, h.combination, ?_⟩⟩
    refine bind_eq_ok_iff.2 ⟨_, h.parts, bind_eq_ok_iff.2 ⟨_, h.branch, ?_⟩⟩
    refine bind_eq_ok_iff.2 ⟨_, h.unwrap, ?_⟩
    -- all fields but the last are there by construction
    have hleaves := h.leaves
    cases code
    simp only at hleaves
    subst hleaves
    rfl

/-- What the combinations of a hop that compiles have in common. -/
theorem checkCombination_eq_ok_iff {scene : HopScene} {adapters : List Adapter} :
    plan.checkCombination scene adapters = .ok () ↔
      (scene.wrappedSource = true → adapters.any (!·.wrapsNative) = false) ∧
        (plan.topology = .single → scene.nativeSource = true →
          adapters.any (·.wrapsNative) = true → adapters.any (!·.wrapsNative) = false) ∧
        (scene.branched = true → (scene.nativeSource || scene.nativeDestination) = true →
          adapters.any (fun adapter => adapter.isSpecial && adapter.wrapsNative) = false) := by
  constructor
  · intro h
    simp only [checkCombination] at h
    split at h
    · cases h
    · next hsale =>
        split at h
        · cases h
        · next hmixed =>
            split at h
            · cases h
            · next hspecial =>
                refine ⟨fun hwrapped => ?_, fun hsingle hnative hwraps => ?_,
                  fun hbranched hnative => ?_⟩
                · simpa only [hwrapped, Bool.true_and, Bool.not_eq_true] using hsale
                · simpa only [hsingle, hnative, hwraps, decide_true, Bool.true_and,
                    Bool.not_eq_true] using hmixed
                · simpa only [hbranched, hnative, Bool.true_and, Bool.not_eq_true] using hspecial
  · rintro ⟨hsale, hmixed, hspecial⟩
    simp only [checkCombination]
    rw [if_neg, if_neg, if_neg]
    · simp only [Bool.and_eq_true]
      rintro ⟨⟨hbranched, hnative⟩, hany⟩
      exact Bool.eq_false_iff.1 (hspecial hbranched hnative) hany
    · simp only [Bool.and_eq_true, decide_eq_true_eq]
      rintro ⟨⟨⟨hsingle, hnative⟩, hwraps⟩, hraw⟩
      exact Bool.eq_false_iff.1 (hmixed hsingle hnative hwraps) hraw
    · simp only [Bool.and_eq_true]
      rintro ⟨hwrapped, hraw⟩
      exact Bool.eq_false_iff.1 (hsale hwrapped) hraw

theorem length_wrapPlaces (scene : HopScene) (wrapped : Bool) (adapters : List Adapter) :
    (plan.wrapPlaces scene wrapped adapters).length = adapters.length := by
  induction adapters generalizing wrapped with
  | nil => rfl
  | cons adapter rest ih => simp [wrapPlaces, ih]

namespace HopBuilt

variable {adapters : List Adapter} {code : HopCode}

/-- A hop has one adapter and one part for each fill. -/
theorem lengths (h : plan.HopBuilt route hop held adapters code) :
    adapters.length = hop.fills.length ∧ code.parts.length = hop.fills.length := by
  have hadapters := (PlacedHop.adapters_eq_ok_iff.1 h.found).length_eq
  have hparts := ((parts_eq_ok_iff hadapters).1 h.parts).length_eq
  simp only [List.length_zip, length_wrapPlaces, hadapters, Nat.min_self] at hparts
  exact ⟨hadapters.symm, hparts.symm.trans hadapters.symm⟩

theorem adapters_ne_nil (h : plan.HopBuilt route hop held adapters code)
    (hfills : hop.fills ≠ []) : adapters ≠ [] := by
  rintro rfl
  exact hfills (List.eq_nil_of_length_eq_zero h.lengths.1.symm)

/-- The part at a position was built from the fill there, from that fill's
adapter, and with the wrap that the place asks for. -/
theorem part_built (h : plan.HopBuilt route hop held adapters code) {k : Nat} {part : Part}
    (hpart : code.parts[k]? = some part) :
    ∃ placed adapter here, hop.fills[k]? = some placed ∧ adapters[k]? = some adapter ∧
      plan.adapters[placed.index]? = some adapter ∧
      (plan.wrapPlaces (plan.scene route hop held adapters) false adapters)[k]? = some here ∧
      plan.PartBuilt (plan.scene route hop held adapters) here placed.fill adapter part := by
  obtain ⟨hadapters, hparts⟩ := h.lengths
  have hk : k < hop.fills.length := by
    rw [← hparts]
    exact (List.getElem?_eq_some_iff.1 hpart).1
  obtain ⟨placed, hplaced⟩ : ∃ placed, hop.fills[k]? = some placed :=
    ⟨_, List.getElem?_eq_getElem hk⟩
  obtain ⟨adapter, hadapter⟩ : ∃ adapter, adapters[k]? = some adapter :=
    ⟨_, List.getElem?_eq_getElem (hadapters ▸ hk)⟩
  obtain ⟨here, hhere⟩ : ∃ here,
      (plan.wrapPlaces (plan.scene route hop held adapters) false adapters)[k]? = some here :=
    ⟨_, List.getElem?_eq_getElem (by rwa [length_wrapPlaces, hadapters])⟩
  have hsite : ((hop.fills.zip adapters).zip
      (plan.wrapPlaces (plan.scene route hop held adapters) false adapters))[k]? =
        some ((placed, adapter), here) :=
    List.getElem?_zip_eq_some.2 ⟨List.getElem?_zip_eq_some.2 ⟨hplaced, hadapter⟩, hhere⟩
  have hfound := rel_of_forall₂ (PlacedHop.adapters_eq_ok_iff.1 h.found) hplaced hadapter
  have hbuilt := rel_of_forall₂ ((parts_eq_ok_iff hadapters.symm).1 h.parts) hsite hpart
  exact ⟨placed, adapter, here, hplaced, hadapter, hfound, hhere, hbuilt⟩

/-- Part by part, what the adapters and the places of wraps have built. -/
theorem forall₂_partBuilt (h : plan.HopBuilt route hop held adapters code) :
    List.Forall₂ (fun site part => ∃ fill,
        plan.PartBuilt (plan.scene route hop held adapters) site.2 fill site.1 part)
      (adapters.zip (plan.wrapPlaces (plan.scene route hop held adapters) false adapters))
      code.parts := by
  refine forall₂_of_getElem? ?_ fun k site part hsite hpart => ?_
  · obtain ⟨hadapters, hparts⟩ := h.lengths
    simp [length_wrapPlaces, hadapters, hparts]
  · obtain ⟨placed, adapter, here, _, hadapter, _, hhere, hbuilt⟩ := h.part_built hpart
    obtain ⟨hfirst, hsecond⟩ := List.getElem?_zip_eq_some.1 hsite
    obtain rfl := Option.some.inj (hfirst.symm.trans hadapter)
    obtain rfl := Option.some.inj (hsecond.symm.trans hhere)
    exact ⟨placed.fill, hbuilt⟩

/-- A branch fans the hop out exactly if the plan says so, under its own flag. -/
theorem branch_built (h : plan.HopBuilt route hop held adapters code) :
    code.branch.isSome = plan.branches hop ∧
      ∀ branch ∈ code.branch, ∃ flag, plan.branchFlag? hop adapters = some flag ∧
        plan.hopBranch (plan.scene route hop held adapters) flag (codeBytes code.children) =
          .ok branch := by
  have hflag : (plan.branchFlag? hop adapters).isSome = plan.branches hop := by
    unfold branchFlag?
    split
    · next hbranches => exact hbranches.symm
    · next hbranches => exact (Bool.eq_false_iff.2 hbranches).symm
  have hbranch := h.branch
  rw [hopBranch?] at hbranch
  rw [← hflag]
  split at hbranch
  · next flag hsome =>
      have hsome : plan.branchFlag? hop adapters = some flag := hsome
      obtain ⟨branch, hbuilt, hcode⟩ := map_eq_ok_iff.1 hbranch
      rw [← hcode, hsome]
      refine ⟨rfl, fun found hfound => ?_⟩
      obtain rfl := Option.some.inj hfound
      exact ⟨flag, rfl, hbuilt⟩
  · next hnone =>
      have hnone : plan.branchFlag? hop adapters = none := hnone
      rw [← Except.ok.inj hbranch, hnone]
      refine ⟨rfl, fun branch hfound => ?_⟩
      simp at hfound

end HopBuilt

/-- The branch of a hop reads the balance of the bought token, or of the wrapped
token if the hop buys the native asset; its frame fits. -/
theorem hopBranch_eq_ok_iff {scene : HopScene} {flag : Flag} {children : Bytes}
    {branch : Branch} :
    plan.hopBranch scene flag children = .ok branch ↔
      Branch.of plan.network.executor flag
          (some (if scene.nativeDestination then plan.network.wrapped
            else scene.hop.hop.destination)) children = .ok branch ∧
        (branch.frame children).Fits :=
  Branch.bind_checked_eq_ok_iff

theorem hops_nil_eq_ok_iff {codes : List HopCode} :
    plan.hops route held [] = .ok codes ↔ codes = [] := by
  simp [hops, eq_comm]

theorem hops_cons_eq_ok_iff {rest : List PlacedHop} {codes : List HopCode} :
    plan.hops route held (hop :: rest) = .ok codes ↔
      ∃ code later, (∃ adapters, plan.HopBuilt route hop held adapters code) ∧
        plan.hops route code.leaves rest = .ok later ∧ codes = code :: later := by
  constructor
  · intro h
    obtain ⟨code, hcode, h⟩ := bind_eq_ok_iff.1 h
    obtain ⟨later, hlater, h⟩ := bind_eq_ok_iff.1 h
    exact ⟨code, later, hop_eq_ok_iff.1 hcode, hlater, (Except.ok.inj h).symm⟩
  · rintro ⟨code, later, hcode, hlater, rfl⟩
    exact bind_eq_ok_iff.2 ⟨code, hop_eq_ok_iff.2 hcode, bind_eq_ok_iff.2 ⟨later, hlater, rfl⟩⟩

theorem length_hops {hops : List PlacedHop} {codes : List HopCode}
    (h : plan.hops route held hops = .ok codes) : codes.length = hops.length := by
  induction hops generalizing held codes with
  | nil => simp [hops_nil_eq_ok_iff.1 h]
  | cons hop rest ih =>
      obtain ⟨code, later, -, hlater, rfl⟩ := hops_cons_eq_ok_iff.1 h
      simp [ih hlater]

/-- The form in which the hop at a position is entered: the given one in front
of the first hop, then what the hop before it left. -/
def entered (held : NativeForm) (codes : List HopCode) : Nat → NativeForm
  | 0 => held
  | i + 1 => (codes[i]?.map (·.leaves)).getD held

/-- Every hop of a route was built from the form that the hop before it left. -/
theorem hopBuilt_of_hops {hops : List PlacedHop} {codes : List HopCode}
    (h : plan.hops route held hops = .ok codes) {i : Nat} {hop : PlacedHop} {code : HopCode}
    (hhop : hops[i]? = some hop) (hcode : codes[i]? = some code) :
    ∃ adapters, plan.HopBuilt route hop (entered held codes i) adapters code := by
  -- what enters the rest is what the first hop left
  induction hops generalizing held codes i with
  | nil => simp at hhop
  | cons first rest ih =>
      obtain ⟨firstCode, later, hfirst, hlater, rfl⟩ := hops_cons_eq_ok_iff.1 h
      cases i with
      | zero =>
          obtain rfl : first = hop := by simpa using hhop
          obtain rfl : firstCode = code := by simpa using hcode
          exact hfirst
      | succ i =>
          simp only [List.getElem?_cons_succ] at hhop hcode
          have hbuilt := ih hlater hhop hcode
          cases i with
          | zero => exact hbuilt
          | succ i =>
              -- behind the first hop the given form no longer matters
              have hi : i < later.length := by
                have := (List.getElem?_eq_some_iff.1 hcode).1
                omega
              simpa [entered, hi] using hbuilt

/-- Every hop of a route has its code. -/
theorem exists_hopBuilt_of_hops {hops : List PlacedHop} {codes : List HopCode}
    (h : plan.hops route held hops = .ok codes) {i : Nat} {hop : PlacedHop}
    (hhop : hops[i]? = some hop) :
    ∃ code adapters, codes[i]? = some code ∧
      plan.HopBuilt route hop (entered held codes i) adapters code := by
  obtain ⟨code, hcode⟩ := exists_getElem?_of_length_eq (length_hops h).symm hhop
  obtain ⟨adapters, hbuilt⟩ := hopBuilt_of_hops h hhop hcode
  exact ⟨code, adapters, hcode, hbuilt⟩

/-- Hop by hop, the codes of a route are built codes of its hops. -/
theorem forall₂_hopBuilt {hops : List PlacedHop} {codes : List HopCode}
    (h : plan.hops route held hops = .ok codes) :
    List.Forall₂ (fun hop code => ∃ held adapters, plan.HopBuilt route hop held adapters code)
      hops codes :=
  forall₂_of_getElem? (length_hops h).symm fun _ _ _ hhop hcode =>
    ⟨_, hopBuilt_of_hops h hhop hcode⟩

end

end Plan

end SwapCompiler
