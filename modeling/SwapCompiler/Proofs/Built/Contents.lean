import SwapCompiler.Proofs.Built.Offset
import SwapCompiler.Proofs.Built.Program
import SwapCompiler.Proofs.ReadingOrder

/-!
# What stands in the bytes of built code

Every frame of some code stands in its bytes, whatever shares and branches are
around it: `frame_infix_codeBytes`.  So the words that a frame brings along are
found by whoever searches the code around it.

* A leg brings the token that it sells, as the target of its allowance
  (`Plan.LegBuilt.infix_of_sold`), and the word of the token that it receives, where its
  call needs that word (`Plan.LegBuilt.infix_of_received`).
* `Plan.exists_part_of_mem` finds the leg of any adapter of a hop, and
  `Plan.received_infix_parts` what it has brought along.
-/

namespace SwapCompiler

theorem Frame.target_prefix_bytes (frame : Frame) : frame.target.bytes <+: frame.bytes := by
  simp only [bytes, header, List.append_assoc]
  exact List.prefix_append _ _

theorem Frame.body_infix_bytes (frame : Frame) : frame.body <:+: frame.bytes :=
  (List.suffix_append frame.header frame.body).isInfix

theorem Branch.children_infix_body (children : Bytes) : children <:+: Branch.body children :=
  (List.suffix_append _ children).isInfix

mutual

theorem Instruction.frame_infix_bytes {frame : Frame} :
    ∀ instruction : Instruction, frame ∈ instruction.allFrames →
      frame.bytes <:+: instruction.bytes
  | .frame found, h => by
      rw [Instruction.allFrames, List.mem_singleton] at h
      rw [h, Instruction.bytes]
  | .branch branch children, h => by
      rw [Instruction.allFrames, List.mem_cons] at h
      rw [Instruction.bytes]
      rcases h with hself | hchild
      · rw [hself]
      · refine (frame_infix_codeBytes children hchild).trans ?_
        exact (Branch.children_infix_body _).trans
          (branch.frame (codeBytes children)).body_infix_bytes
  | .share share content, h => by
      rw [Instruction.allFrames] at h
      rw [Instruction.bytes]
      exact (frame_infix_codeBytes content h).trans (List.suffix_append _ _).isInfix

/-- A frame stands in the bytes of the code that it belongs to. -/
theorem frame_infix_codeBytes {frame : Frame} :
    ∀ code : List Instruction, frame ∈ codeFrames code → frame.bytes <:+: codeBytes code
  | [], h => by
      rw [codeFrames_nil] at h
      exact nomatch h
  | instruction :: rest, h => by
      rw [codeFrames_cons, List.mem_append] at h
      rw [codeBytes_cons]
      rcases h with hhere | hlater
      · exact (instruction.frame_infix_bytes hhere).trans (List.prefix_append _ _).isInfix
      · exact (frame_infix_codeBytes rest hlater).trans (List.suffix_append _ _).isInfix

end

/-! ## Frames of legs -/

section

variable {frame : Frame}

theorem Leg.codeFrames_code_eq (leg : Leg) : codeFrames leg.code = leg.frames :=
  codeFrames_map_frame leg.frames

theorem mem_codeFrames_parts {parts : List Part} {part : Part} (hpart : part ∈ parts)
    (hframe : frame ∈ part.leg.frames) : frame ∈ codeFrames (parts.flatMap Part.code) := by
  rw [codeFrames_flatMap, List.mem_flatMap]
  refine ⟨part, hpart, ?_⟩
  rwa [Part.code, codeFrames_shared, Leg.codeFrames_code_eq]

theorem HopCode.mem_codeFrames_code {hop : HopCode} (h : frame ∈ codeFrames hop.children) :
    frame ∈ codeFrames hop.code := by
  rw [HopCode.code, codeFrames_append, codeFrames_branched]
  exact List.mem_append_left _ (List.mem_append_right _ h)

theorem RouteCode.mem_codeFrames_code {route : RouteCode} {hop : HopCode}
    (hhop : hop ∈ route.hops) (h : frame ∈ codeFrames hop.code) :
    frame ∈ codeFrames route.code := by
  rw [RouteCode.code, codeFrames_append, codeFrames_flatMap]
  exact List.mem_append_left _ (List.mem_flatMap.2 ⟨hop, hhop, h⟩)

theorem mem_codeFrames_routesCode {routes : List RoutePart} {part : RoutePart}
    (hpart : part ∈ routes) (h : frame ∈ codeFrames part.route.code) :
    frame ∈ codeFrames (routesCode routes) := by
  rw [routesCode, codeFrames_flatMap, List.mem_flatMap]
  refine ⟨part, hpart, ?_⟩
  rwa [RoutePart.code, codeFrames_shared]

theorem Leg.call_mem_frames (leg : Leg) : leg.call ∈ leg.frames := by
  simp [Leg.frames]

theorem Leg.mem_frames_of_approve {leg : Leg} (h : leg.approve = some frame) :
    frame ∈ leg.frames := by
  simp [Leg.frames, h]

end

namespace Plan

variable {plan : Plan} {scene : HopScene} {here : Bool} {fill : Fill} {adapter : Adapter}
  {leg : Leg}

/-! ## The tokens of a leg -/

/-- An exchange that sells a token has an allowance for it in front of its call. -/
theorem LegBuilt.exists_approve (h : plan.LegBuilt scene here fill adapter leg)
    (hsold : plan.network.isNative (plan.soldToken scene adapter) = false) :
    ∃ frame, leg.approve = some frame ∧ frame.target = plan.soldToken scene adapter := by
  have hneeded : (!plan.network.isNative (plan.soldToken scene adapter)) = true := by
    rw [hsold]
    rfl
  obtain ⟨frame, hframe, hbuilt⟩ := exists_of_onlyIf h.approve hneeded
  obtain ⟨hcall, _⟩ := Frame.bind_checked_eq_ok_iff.1 hbuilt
  exact ⟨frame, hframe, (Frame.spec_ofAmountCall hcall).1⟩

/-- So the sold token's address stands in one of its frames. -/
theorem LegBuilt.infix_of_sold (h : plan.LegBuilt scene here fill adapter leg)
    (hsold : plan.network.isNative (plan.soldToken scene adapter) = false) :
    ∃ frame ∈ leg.frames, (plan.soldToken scene adapter).bytes <:+: frame.bytes := by
  obtain ⟨frame, hframe, htarget⟩ := h.exists_approve hsold
  refine ⟨frame, Leg.mem_frames_of_approve hframe, ?_⟩
  rw [← htarget]
  exact frame.target_prefix_bytes.isInfix

/-- Where nothing is wrapped in front, it is the first thing that a leg holds. -/
theorem LegBuilt.prefix_of_sold (h : plan.LegBuilt scene false fill adapter leg)
    (hsold : plan.network.isNative (plan.soldToken scene adapter) = false) :
    (plan.soldToken scene adapter).bytes <+: codeBytes leg.code := by
  obtain ⟨frame, hframe, htarget⟩ := h.exists_approve hsold
  have hwrap : leg.wrap = none := eq_none_of_onlyIf h.wrap rfl
  have hbytes : ∃ later, codeBytes leg.code = frame.bytes ++ later := by
    simp [Leg.code, Leg.frames, hwrap, hframe, Instruction.bytes]
  obtain ⟨later, hlater⟩ := hbytes
  rw [hlater, ← htarget]
  exact frame.target_prefix_bytes.trans (List.prefix_append _ _)

theorem LegBuilt.infix_of_received (h : plan.LegBuilt scene here fill adapter leg)
    (hneeds : (plan.call scene fill adapter).needsToken = true) :
    ∃ frame ∈ leg.frames, (plan.receivedToken scene adapter).word <:+: frame.bytes := by
  refine ⟨leg.call, leg.call_mem_frames, ?_⟩
  exact (Call.received_infix_of_frame h.call hneeds).trans leg.call.body_infix_bytes

/-- A call needs the word of its token if its flag reads that token's balance, or if
the branch around it looks for the word. -/
theorem needsToken_call : (plan.call scene fill adapter).needsToken =
    ((plan.callFlag scene adapter).checksToken ||
      (scene.exposesDestination &&
        !plan.network.isNative (plan.receivedToken scene adapter))) :=
  rfl

theorem callFlag_of_ne_single {scene : HopScene} {adapter : Adapter}
    (h : plan.topology ≠ .single) :
    plan.callFlag scene adapter =
      HopFacts.flag
        { first := scene.hop.first
          last := scene.hop.last
          nativeSource := scene.nativeSource
          nativeDestination := scene.nativeDestination
          wraps := scene.wraps adapter
          unwraps := scene.unwraps adapter
          horizontal := scene.horizontal
          special := adapter.isSpecial
          branched := scene.branched
          paysRecipient := adapter.paysRecipient } := by
  unfold callFlag
  split
  · next hsingle => exact absurd hsingle h
  · rfl
  · rfl

/-! ## The parts of a hop -/

/-- Every adapter of a hop has a part that was built for it. -/
theorem exists_part_of_mem {fills : List PlacedFill} {adapters : List Adapter} {served : Bool}
    {parts : List Part} (hlength : fills.length = adapters.length)
    (h : plan.parts scene served (fills.zip adapters) = .ok parts) (hmem : adapter ∈ adapters) :
    ∃ part ∈ parts, ∃ here fill, plan.PartBuilt scene here fill adapter part := by
  have hbuilt := (parts_eq_ok_iff hlength).1 h
  obtain ⟨k, hk⟩ := List.mem_iff_getElem?.1 hmem
  obtain ⟨placed, hplaced⟩ := exists_getElem?_of_length_eq hlength.symm hk
  obtain ⟨here, hhere⟩ :=
    exists_getElem?_of_length_eq (length_wrapPlaces scene served adapters).symm hk
  have hsite : ((fills.zip adapters).zip (plan.wrapPlaces scene served adapters))[k]? =
      some ((placed, adapter), here) :=
    List.getElem?_zip_eq_some.2 ⟨List.getElem?_zip_eq_some.2 ⟨hplaced, hk⟩, hhere⟩
  obtain ⟨part, hpart, hpartBuilt⟩ := exists_rel_of_forall₂ hbuilt hsite
  exact ⟨part, List.mem_of_getElem? hpart, here, placed.fill, hpartBuilt⟩

/-- The word that one exchange of a hop brings along stands in the code of the hop's
parts. -/
theorem received_infix_parts {fills : List PlacedFill} {adapters : List Adapter} {served : Bool}
    {parts : List Part} (hlength : fills.length = adapters.length)
    (h : plan.parts scene served (fills.zip adapters) = .ok parts) (hmem : adapter ∈ adapters)
    (hneeds : ∀ fill, (plan.call scene fill adapter).needsToken = true) :
    ∃ frame ∈ codeFrames (parts.flatMap Part.code),
      (plan.receivedToken scene adapter).word <:+: frame.bytes := by
  obtain ⟨part, hpart, here, fill, hbuilt⟩ := exists_part_of_mem hlength h hmem
  obtain ⟨frame, hframe, hstands⟩ := hbuilt.leg.infix_of_received (hneeds fill)
  exact ⟨frame, mem_codeFrames_parts hpart hframe, hstands⟩

end Plan

end SwapCompiler
