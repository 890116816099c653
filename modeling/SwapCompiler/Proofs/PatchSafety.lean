import SwapCompiler.Proofs.Built.Contents
import SwapCompiler.Proofs.Calls

/-!
# Frames are patched inside their own bodies

At run time the interpreter writes the running amount over 32 bytes of a frame's body,
and reads the address of a token from 32 others.  `Frame.PatchSafe` says that both
windows lie inside the body and hold what is meant to be there, that an offset which the
flag does not use is zero, and that the wire format has cut nothing off.

* `Call.patchSafe`, `Branch.patchSafe` and their like prove it of each kind of frame.
* `Job.PatchSafe` says what each frame of a trade is meant to hold, fill by fill and hop
  by hop; `Plan.ProgramBuilt.patchSafe` proves it, and
  `Job.PatchSafe.of_mem_codeFrames` says that no frame is left out.
* `CodeFits` says that the lengths and positions of all nested formats fit their fields.
-/

namespace SwapCompiler

/-- What is asked of the place where the amount is patched in. -/
inductive AmountWindow
  /-- The word of a quoted amount stands there. -/
  | holds (amount : Nat)
  /-- It is where the frame's own format puts the amount. -/
  | startsAt (offset : Nat)

namespace Frame

/-- The 32 bytes of the body from an offset on. -/
def window (frame : Frame) (offset : Nat) : Bytes :=
  (frame.body.drop offset).take 32

end Frame

/-- The frame's amount offset is as asked. -/
def AmountWindow.MetBy (frame : Frame) : AmountWindow → Prop
  | .holds amount =>
      amount < Bytes.capacity 32 ∧ frame.window frame.amountOffset = Bytes.word amount
  | .startsAt offset => frame.amountOffset = offset

/-- A frame is patched as asked: at most the given amount is written, and at most the
given token is read. -/
structure Frame.PatchSafe (frame : Frame) (amount : Option AmountWindow)
    (token : Option Address) : Prop where
  code_lt : frame.flag.code < 12
  /-- The length and both offsets are on the wire as they are. -/
  fits : frame.Fits
  amount : frame.flag.patches = true → ∃ window ∈ amount,
    frame.amountOffset + 32 ≤ frame.body.length ∧ window.MetBy frame
  amount_zero : frame.flag.patches = false → frame.amountOffset = 0
  token : frame.flag.checksToken = true → ∃ received ∈ token,
    frame.tokenOffset + 32 ≤ frame.body.length ∧
      frame.window frame.tokenOffset = received.word
  token_zero : frame.flag.checksToken = false → frame.tokenOffset = 0

namespace Job

/-- What the frames of a fill are patched with: approvals and calls with the amount sold,
transfers with the amount bought; a call reads the token that its exchange delivers. -/
structure LegPatchSafe (job : Job) (hop : PlacedHop) (fill : Fill) (adapter : Adapter)
    (leg : Leg) : Prop where
  wrap : ∀ frame ∈ leg.wrap, frame.PatchSafe none none
  approve : ∀ frame ∈ leg.approve, frame.PatchSafe (some (.holds fill.sourceAmount)) none
  call : leg.call.PatchSafe (some (.holds fill.sourceAmount))
    (some (job.network.dealt adapter hop.hop.destination))
  unwrap : ∀ frame ∈ leg.unwrap, frame.PatchSafe (some (.startsAt 4)) none
  transfer : ∀ frame ∈ leg.transfer, frame.PatchSafe (some (.holds fill.destinationAmount)) none

/-- What the frames of a hop are patched with.  The branch around it reads the wrapped
token where the hop buys native asset. -/
structure HopPatchSafe (job : Job) (hop : PlacedHop) (code : HopCode) : Prop where
  legs : List.Forall₂ (fun placed part => ∃ adapter, job.adapters[placed.index]? = some adapter ∧
    job.LegPatchSafe hop placed.fill adapter part.leg) hop.fills code.parts
  branch : ∀ branch ∈ code.branch, (branch.frame (codeBytes code.children)).PatchSafe
    (some (.startsAt ((branch.frame (codeBytes code.children)).body.length - 92)))
    (some (if job.network.isNative hop.hop.destination then job.network.wrapped
      else hop.hop.destination))
  unwrap : ∀ frame ∈ code.unwrap, frame.PatchSafe (some (.startsAt 4)) none

structure RoutePatchSafe (job : Job) (route : PlacedRoute) (part : RoutePart) : Prop where
  hops : List.Forall₂ job.HopPatchSafe route.hops part.route.hops
  forward : ∀ frame ∈ part.route.forward, frame.PatchSafe none none

/-- What the frames of a trade are patched with.  The branch around all routes is not
patched, and reads the wrapped token if anything. -/
structure PatchSafe (job : Job) (program : Program) : Prop where
  routes : List.Forall₂ job.RoutePatchSafe job.layout.routes program.routes
  wrap : ∀ frame ∈ program.wrap, frame.PatchSafe none none
  branch : ∀ branch ∈ program.branch,
    (branch.frame (codeBytes (routesCode program.routes))).PatchSafe none
      (some job.network.wrapped)
  unwrap : ∀ frame ∈ program.unwrap, frame.PatchSafe (some (.startsAt 4)) none
  forward : ∀ frame ∈ program.forward, frame.PatchSafe none none

end Job

mutual

/-- The lengths, offsets and positions of an instruction and of all code inside it fit
their fields. -/
def Instruction.Fits : Instruction → Prop
  | .frame frame => frame.Fits
  | .branch branch children =>
      (branch.frame (codeBytes children)).Fits ∧
        (codeBytes children).length < Bytes.capacity 32 ∧ CodeFits children
  | .share share content => share.Fits (codeBytes content) ∧ CodeFits content

/-- All instructions of some code fit. -/
def CodeFits : List Instruction → Prop
  | [] => True
  | instruction :: rest => instruction.Fits ∧ CodeFits rest

end

/-! ## Each kind of frame -/

/-- The window of 32 bytes at an occurrence of a word. -/
theorem Frame.window_of_occursAt {frame : Frame} {word : Bytes} {offset : Nat}
    (hword : word.length = 32) (h : Bytes.OccursAt word offset frame.body) :
    offset + 32 ≤ frame.body.length ∧ frame.window offset = word := by
  have hne : word ≠ [] := by
    rw [← List.length_pos_iff]
    omega
  have hinside := h.add_length_le hne
  have hwindow := h.window
  rw [hword] at hinside hwindow
  exact ⟨hinside, hwindow⟩

theorem Call.patchSafe {call : Call} {frame : Frame} (h : call.frame = .ok frame)
    (hfits : frame.Fits) :
    frame.PatchSafe (some (.holds call.sourceAmount)) (some call.received) := by
  have hflag : frame.flag = call.flag := Call.flag_of_frame h
  refine ⟨frame.flag.code_lt, hfits, fun hpatches => ?_, fun hkept => ?_, fun hchecks => ?_,
    fun hkept => ?_⟩
  · rw [hflag] at hpatches
    obtain ⟨hamount, hoccurs⟩ := Call.occursAt_of_patches h hpatches
    obtain ⟨hinside, hwindow⟩ := Frame.window_of_occursAt (Bytes.length_word _) hoccurs
    exact ⟨_, rfl, hinside, hamount, hwindow⟩
  · rw [hflag] at hkept
    exact Call.amountOffset_eq_zero h hkept
  · rw [hflag] at hchecks
    have hoccurs := Call.occursAt_of_checksToken h hchecks
    obtain ⟨hinside, hwindow⟩ := Frame.window_of_occursAt (Address.length_word _) hoccurs
    exact ⟨_, rfl, hinside, hwindow⟩
  · rw [hflag] at hkept
    exact Call.tokenOffset_eq_zero h hkept

namespace Frame

variable {frame : Frame}

theorem patchSafe_of_ofAmountCall {selector : Bytes} {token party : Address} {amount : Nat}
    (h : (ofAmountCall selector token party amount >>= checked) = .ok frame) :
    frame.PatchSafe (some (.holds amount)) none := by
  obtain ⟨hcall, hfits⟩ := bind_checked_eq_ok_iff.1 h
  obtain ⟨_, hflag, htoken, hamount, hoccurs⟩ := spec_ofAmountCall hcall
  obtain ⟨hinside, hwindow⟩ := window_of_occursAt (Bytes.length_word _) hoccurs
  refine ⟨frame.flag.code_lt, hfits, fun _ => ⟨_, rfl, hinside, hamount, hwindow⟩, fun hkept => ?_,
    fun hchecks => ?_, fun _ => htoken⟩
  · rw [hflag] at hkept
    exact nomatch hkept
  · rw [hflag] at hchecks
    exact nomatch hchecks

/-- A frame that neither patches nor reads a token has no offsets. -/
theorem patchSafe_of_plain (hfits : frame.Fits) (hpatches : frame.flag.patches = false)
    (hchecks : frame.flag.checksToken = false) (hamount : frame.amountOffset = 0)
    (htoken : frame.tokenOffset = 0) : frame.PatchSafe none none := by
  refine ⟨frame.flag.code_lt, hfits, fun h => ?_, fun _ => hamount, fun h => ?_, fun _ => htoken⟩
  · rw [hpatches] at h
    exact nomatch h
  · rw [hchecks] at h
    exact nomatch h

theorem patchSafe_sendNative : sendNative.PatchSafe none none :=
  patchSafe_of_plain sendNative_fits rfl rfl rfl rfl

theorem patchSafe_of_unwrap {wrapped : Address} {withdraw : Bytes} {flag : Flag}
    (h : Frame.unwrap wrapped withdraw flag = .ok frame) (hfits : frame.Fits)
    (hpatches : flag.patches = true) (hchecks : flag.checksToken = false) :
    frame.PatchSafe (some (.startsAt 4)) none := by
  obtain ⟨hlong, hframe⟩ := unwrap_eq_ok_iff.1 h
  rw [hpatches, if_pos rfl] at hframe
  refine ⟨frame.flag.code_lt, hfits, fun _ => ⟨_, rfl, ?_, ?_⟩, fun hkept => ?_, fun hread => ?_,
    fun _ => ?_⟩
  · rw [hframe]
    exact hlong
  · show frame.amountOffset = 4
    rw [hframe]
    rfl
  · rw [hframe] at hkept
    exact absurd (hpatches.symm.trans hkept) nofun
  · rw [hframe] at hread
    exact absurd (hchecks.symm.trans hread) nofun
  · rw [hframe]
    rfl

end Frame

/-- The amount of a branch goes to a fixed distance before its end. -/
theorem Branch.patchSafe {executor token : Address} {flag : Flag} {children : Bytes}
    {branch : Branch} (h : Branch.of executor flag (some token) children = .ok branch)
    (hfits : (branch.frame children).Fits) :
    (branch.frame children).PatchSafe
      (some (.startsAt ((branch.frame children).body.length - 92))) (some token) := by
  obtain ⟨_, hflag, hoffset⟩ := Branch.of_eq_ok_iff.1 h
  have hamount : (branch.frame children).amountOffset =
      if branch.flag.patches then (branch.frame children).body.length - 92 else 0 := rfl
  have hlength : (branch.frame children).body.length = children.length + 96 :=
    Branch.length_body children
  refine ⟨Flag.code_lt _, hfits, fun hpatches => ?_, fun hkept => ?_, fun hchecks => ?_,
    fun hkept => ?_⟩
  · have hpatched : branch.flag.patches = true := hpatches
    rw [hpatched, if_pos rfl] at hamount
    refine ⟨_, rfl, ?_, hamount⟩
    rw [hamount]
    omega
  · have hunpatched : branch.flag.patches = false := hkept
    rw [hamount, hunpatched, if_neg Bool.false_ne_true]
  · have hreads : flag.checksToken = true := by
      rw [← hflag]
      exact hchecks
    have hoccurs := Branch.occursAt_of_checksToken h hreads
    obtain ⟨hinside, hwindow⟩ := Frame.window_of_occursAt token.length_word hoccurs
    exact ⟨token, rfl, hinside, hwindow⟩
  · have hignores : flag.checksToken = false := by
      rw [← hflag]
      exact hkept
    rw [hignores, if_neg Bool.false_ne_true] at hoffset
    exact hoffset

/-! ## All frames of a trade -/

namespace Plan

variable {plan : Plan} {route : PlacedRoute} {hop : PlacedHop} {held : NativeForm}
  {adapters : List Adapter} {frame : Frame}

theorem patchSafe_of_wrapFrame (h : plan.wrapFrame = .ok frame) : frame.PatchSafe none none := by
  obtain ⟨deposit, _, rfl, hfits⟩ := wrapFrame_eq_ok_iff.1 h
  exact Frame.patchSafe_of_plain hfits rfl rfl rfl rfl

theorem patchSafe_of_unwrapFrame {flag : Flag} (h : plan.unwrapFrame flag = .ok frame)
    (hpatches : flag.patches = true) (hchecks : flag.checksToken = false) :
    frame.PatchSafe (some (.startsAt 4)) none := by
  obtain ⟨withdraw, _, hunwrap, hfits⟩ := unwrapFrame_eq_ok_iff.1 h
  exact Frame.patchSafe_of_unwrap hunwrap hfits hpatches hchecks

theorem LegBuilt.patchSafe {here : Bool} {fill : Fill} {adapter : Adapter} {leg : Leg}
    (h : plan.LegBuilt (plan.scene route hop held adapters) here fill adapter leg) :
    plan.LegPatchSafe hop fill adapter leg := by
  constructor
  · intro frame hframe
    exact patchSafe_of_wrapFrame ((onlyIf_eq_ok_iff.1 h.wrap).2 frame hframe)
  · intro frame hframe
    exact Frame.patchSafe_of_ofAmountCall ((onlyIf_eq_ok_iff.1 h.approve).2 frame hframe)
  · exact Call.patchSafe h.call h.call_fits
  · intro frame hframe
    exact patchSafe_of_unwrapFrame ((onlyIf_eq_ok_iff.1 h.unwrap).2 frame hframe) rfl rfl
  · intro frame hframe
    exact Frame.patchSafe_of_ofAmountCall ((onlyIf_eq_ok_iff.1 h.transfer).2 frame hframe)

theorem HopBuilt.patchSafe {code : HopCode} (h : plan.HopBuilt route hop held adapters code) :
    plan.HopPatchSafe hop code := by
  constructor
  · refine forall₂_of_getElem? h.lengths.2.symm fun k placed part hplaced hpart => ?_
    obtain ⟨found, adapter, here, hfound, _, hadapter, _, hbuilt⟩ := h.part_built hpart
    obtain rfl : found = placed := Option.some.inj (hfound.symm.trans hplaced)
    exact ⟨adapter, hadapter, hbuilt.leg.patchSafe⟩
  · intro branch hbranch
    obtain ⟨flag, _, hbuilt⟩ := h.branch_built.2 branch hbranch
    obtain ⟨hof, hfits⟩ := hopBranch_eq_ok_iff.1 hbuilt
    exact Branch.patchSafe hof hfits
  · intro frame hframe
    exact patchSafe_of_unwrapFrame ((onlyIf_eq_ok_iff.1 h.unwrap).2 frame hframe) rfl rfl

theorem RouteBuilt.patchSafe {part : RoutePart} (h : plan.RouteBuilt route part) :
    plan.RoutePatchSafe route part := by
  refine ⟨(forall₂_hopBuilt h.hops).imp fun hop code hcode => ?_, fun frame hframe => ?_⟩
  · obtain ⟨held, adapters, hbuilt⟩ := hcode
    exact hbuilt.patchSafe
  · rw [Frame.sendNative_checked_eq_ok_iff.1 ((onlyIf_eq_ok_iff.1 h.forward).2 frame hframe)]
    exact Frame.patchSafe_sendNative

theorem ProgramBuilt.patchSafe {program : Program} (h : plan.ProgramBuilt program) :
    plan.PatchSafe program := by
  constructor
  · exact h.routes.imp fun _ _ hroute => hroute.patchSafe
  · intro frame hframe
    exact patchSafe_of_wrapFrame ((onlyIf_eq_ok_iff.1 h.wrap).2 frame hframe)
  · intro branch hbranch
    obtain ⟨hof, hfits⟩ := rootBranch_eq_ok_iff.1 ((onlyIf_eq_ok_iff.1 h.branch).2 branch hbranch)
    have hsafe := Branch.patchSafe hof hfits
    -- neither of the two flags of this branch patches an amount
    have hunpatched : (branch.frame (codeBytes (routesCode program.routes))).flag.patches =
        false := by
      have hflag : branch.flag = plan.rootBranchFlag := (Branch.of_eq_ok_iff.1 hof).2.1
      show branch.flag.patches = false
      rw [hflag, rootBranchFlag]
      split <;> rfl
    refine ⟨hsafe.code_lt, hsafe.fits, fun hpatches => ?_, hsafe.amount_zero, hsafe.token,
      hsafe.token_zero⟩
    rw [hunpatched] at hpatches
    exact nomatch hpatches
  · intro frame hframe
    exact patchSafe_of_unwrapFrame ((onlyIf_eq_ok_iff.1 h.unwrap).2 frame hframe) rfl rfl
  · intro frame hframe
    rw [Frame.sendNative_checked_eq_ok_iff.1 ((onlyIf_eq_ok_iff.1 h.forward).2 frame hframe)]
    exact Frame.patchSafe_sendNative

end Plan

section

variable {job : Job} {frame : Frame}

theorem Job.LegPatchSafe.of_mem {hop : PlacedHop} {fill : Fill} {adapter : Adapter} {leg : Leg}
    (h : job.LegPatchSafe hop fill adapter leg) (hframe : frame ∈ leg.frames) :
    ∃ amount token, frame.PatchSafe amount token := by
  simp only [Leg.frames, List.mem_append, Option.mem_toList, List.mem_singleton] at hframe
  rcases hframe with (((hwrap | happrove) | hcall) | hunwrap) | htransfer
  · exact ⟨_, _, h.wrap frame hwrap⟩
  · exact ⟨_, _, h.approve frame happrove⟩
  · rw [hcall]
    exact ⟨_, _, h.call⟩
  · exact ⟨_, _, h.unwrap frame hunwrap⟩
  · exact ⟨_, _, h.transfer frame htransfer⟩

theorem Job.HopPatchSafe.of_mem {hop : PlacedHop} {code : HopCode}
    (h : job.HopPatchSafe hop code) (hframe : frame ∈ codeFrames code.code) :
    ∃ amount token, frame.PatchSafe amount token := by
  rw [HopCode.code, codeFrames_append, codeFrames_branched, codeFrames_map_frame] at hframe
  simp only [List.mem_append, List.mem_map, Option.mem_toList] at hframe
  rcases hframe with (⟨branch, hbranch, rfl⟩ | hchild) | hunwrap
  · exact ⟨_, _, h.branch branch hbranch⟩
  · rw [HopCode.children, codeFrames_flatMap, List.mem_flatMap] at hchild
    obtain ⟨part, hpart, hleg⟩ := hchild
    rw [Part.code, codeFrames_shared, Leg.codeFrames_code_eq] at hleg
    obtain ⟨placed, _, adapter, _, hsafe⟩ := exists_mem_of_forall₂ h.legs hpart
    exact hsafe.of_mem hleg
  · exact ⟨_, _, h.unwrap frame hunwrap⟩

theorem Job.RoutePatchSafe.of_mem {route : PlacedRoute} {part : RoutePart}
    (h : job.RoutePatchSafe route part) (hframe : frame ∈ codeFrames part.route.code) :
    ∃ amount token, frame.PatchSafe amount token := by
  rw [RouteCode.code, codeFrames_append, codeFrames_flatMap, codeFrames_map_frame,
    List.mem_append, List.mem_flatMap, Option.mem_toList] at hframe
  rcases hframe with ⟨code, hcode, hhop⟩ | hforward
  · obtain ⟨hop, _, hsafe⟩ := exists_mem_of_forall₂ h.hops hcode
    exact hsafe.of_mem hhop
  · exact ⟨_, _, h.forward frame hforward⟩

/-- Every frame, however deep, is one of those that are patched as asked. -/
theorem Job.PatchSafe.of_mem_codeFrames {program : Program} (h : job.PatchSafe program)
    (hframe : frame ∈ codeFrames program.code) : ∃ amount token, frame.PatchSafe amount token := by
  rw [Program.code, codeFrames_shared, Program.content] at hframe
  simp only [codeFrames_append, codeFrames_branched, codeFrames_map_frame, List.mem_append,
    List.mem_map, Option.mem_toList] at hframe
  rcases hframe with ((hwrap | ⟨branch, hbranch, rfl⟩ | hroutes) | hunwrap) | hforward
  · exact ⟨_, _, h.wrap frame hwrap⟩
  · exact ⟨_, _, h.branch branch hbranch⟩
  · rw [routesCode, codeFrames_flatMap, List.mem_flatMap] at hroutes
    obtain ⟨part, hpart, hroute⟩ := hroutes
    rw [RoutePart.code, codeFrames_shared] at hroute
    obtain ⟨route, _, hsafe⟩ := exists_mem_of_forall₂ h.routes hpart
    exact hsafe.of_mem hroute
  · exact ⟨_, _, h.unwrap frame hunwrap⟩
  · exact ⟨_, _, h.forward frame hforward⟩

end

/-! ## All nested formats -/

section

variable {code first second : List Instruction}

@[simp] theorem codeFits_append :
    CodeFits (first ++ second) ↔ CodeFits first ∧ CodeFits second := by
  induction first with
  | nil => simp [CodeFits]
  | cons instruction rest ih => simp [CodeFits, ih, and_assoc]

theorem codeFits_flatMap {α : Type} {list : List α} {write : α → List Instruction}
    (h : ∀ element ∈ list, CodeFits (write element)) : CodeFits (list.flatMap write) := by
  induction list with
  | nil => simp [CodeFits]
  | cons element rest ih =>
      rw [List.flatMap_cons, codeFits_append]
      exact ⟨h element List.mem_cons_self,
        ih fun other hmem => h other (List.mem_cons_of_mem _ hmem)⟩

theorem codeFits_frames {frames : List Frame} (h : ∀ frame ∈ frames, frame.Fits) :
    CodeFits (frames.map .frame) := by
  induction frames with
  | nil => simp [CodeFits]
  | cons frame rest ih =>
      rw [List.map_cons, CodeFits, Instruction.Fits]
      exact ⟨h frame List.mem_cons_self, ih fun other hmem => h other (List.mem_cons_of_mem _ hmem)⟩

theorem codeFits_shared {share : Option Share}
    (hshare : ∀ found ∈ share, found.Fits (codeBytes code)) (h : CodeFits code) :
    CodeFits (shared share code) := by
  cases share with
  | none => exact h
  | some share => simpa [shared, CodeFits, Instruction.Fits] using ⟨hshare share rfl, h⟩

/-- The length word inside a branch is wider than the length field of its frame. -/
theorem codeFits_branched {branch : Option Branch}
    (hbranch : ∀ found ∈ branch, (found.frame (codeBytes code)).Fits) (h : CodeFits code) :
    CodeFits (branched branch code) := by
  cases branch with
  | none => exact h
  | some branch =>
      have hfits := hbranch branch rfl
      have hbody : (branch.frame (codeBytes code)).body.length = (codeBytes code).length + 96 :=
        Branch.length_body _
      have hwider : Bytes.capacity 4 ≤ Bytes.capacity 32 := by decide
      have hlength : (codeBytes code).length < Bytes.capacity 32 := by
        have hframe := hfits.1
        omega
      simpa [branched, CodeFits, Instruction.Fits] using ⟨hfits, hlength, h⟩

end

namespace Plan

variable {plan : Plan} {route : PlacedRoute} {hop : PlacedHop} {held : NativeForm}
  {adapters : List Adapter}

theorem HopBuilt.codeFits {code : HopCode} (h : plan.HopBuilt route hop held adapters code) :
    CodeFits code.code := by
  have hsafe := h.patchSafe
  rw [HopCode.code, codeFits_append]
  constructor
  · refine codeFits_branched (fun branch hbranch => (hsafe.branch branch hbranch).fits) ?_
    refine codeFits_flatMap fun part hpart => ?_
    obtain ⟨k, hk⟩ := List.mem_iff_getElem?.1 hpart
    obtain ⟨_, _, _, _, _, _, _, hbuilt⟩ := h.part_built hk
    refine codeFits_shared (fun share hshare => ?_) (codeFits_frames fun frame hframe => ?_)
    · exact Share.fits_of_eq_ok ((onlyIf_eq_ok_iff.1 hbuilt.share).2 share hshare)
    · obtain ⟨_, _, hframeSafe⟩ := hbuilt.leg.patchSafe.of_mem hframe
      exact hframeSafe.fits
  · exact codeFits_frames fun frame hframe => (hsafe.unwrap frame (Option.mem_toList.1 hframe)).fits

theorem RouteBuilt.codeFits {part : RoutePart} (h : plan.RouteBuilt route part) :
    CodeFits part.code := by
  refine codeFits_shared (fun share hshare => ?_) ?_
  · exact Share.fits_of_eq_ok ((onlyIf_eq_ok_iff.1 h.share).2 share hshare)
  rw [RouteCode.code, codeFits_append]
  constructor
  · refine codeFits_flatMap fun code hcode => ?_
    obtain ⟨hop, _, held, adapters, hbuilt⟩ := exists_mem_of_forall₂ (forall₂_hopBuilt h.hops) hcode
    exact hbuilt.codeFits
  · exact codeFits_frames fun frame hframe =>
      (h.patchSafe.forward frame (Option.mem_toList.1 hframe)).fits

theorem ProgramBuilt.codeFits {program : Program} (h : plan.ProgramBuilt program) :
    CodeFits program.code := by
  have hsafe := h.patchSafe
  have hframes : ∀ {frame : Option Frame}, (∀ found ∈ frame, found.Fits) →
      CodeFits (frame.toList.map .frame) :=
    fun hfits => codeFits_frames fun frame hframe => hfits frame (Option.mem_toList.1 hframe)
  refine codeFits_shared (fun share hshare => ?_) ?_
  · exact Share.fits_of_eq_ok ((onlyIf_eq_ok_iff.1 h.share).2 share hshare)
  rw [Program.content, codeFits_append, codeFits_append, codeFits_append]
  refine ⟨⟨⟨hframes fun frame hframe => (hsafe.wrap frame hframe).fits, ?_⟩,
    hframes fun frame hframe => (hsafe.unwrap frame hframe).fits⟩,
    hframes fun frame hframe => (hsafe.forward frame hframe).fits⟩
  refine codeFits_branched (fun branch hbranch => (hsafe.branch branch hbranch).fits) ?_
  refine codeFits_flatMap fun part hpart => ?_
  obtain ⟨route, _, hbuilt⟩ := exists_mem_of_forall₂ h.routes hpart
  exact hbuilt.codeFits

end Plan

/-- Bytecode is read back as a program in which every frame, at every depth, is patched
inside its own body and as its fill or hop asks; no length or offset of any nested
format has been cut off, nor that of the whole, as long as it can be counted by a
64-bit machine. -/
theorem Job.patchSafe_of_bytecode {job : Job} {data : Bytes} (h : job.bytecode = .ok data) :
    ∃ (plan : Plan) (program : Program), Plan.of job = .ok plan ∧
      readEnvelope plan.shape.reader data = some program ∧ job.PatchSafe program ∧
      (∀ frame ∈ codeFrames program.code, ∃ amount token, frame.PatchSafe amount token) ∧
      CodeFits program.code ∧
      (data.length < Bytes.capacity 8 →
        Bytes.ofBigEndian ((data.drop 32).take 32) = data.length) := by
  obtain ⟨program, hcompile, rfl⟩ := map_eq_ok_iff.1 h
  obtain ⟨hcheck, plan, hplan, hbuilt⟩ := Job.compile_eq_ok_iff.1 hcompile
  obtain ⟨rfl, _⟩ := Plan.settled_of_eq_ok hplan
  have hsafe := hbuilt.patchSafe
  refine ⟨plan, program, hplan, readEnvelope_envelope hbuilt.reads, hsafe,
    fun frame hframe => hsafe.of_mem_codeFrames hframe, hbuilt.codeFits, fun hmachine => ?_⟩
  have hlength : program.bytes.length = (codeBytes program.code).length + 64 :=
    length_envelope _
  have hword : (program.bytes.drop 32).take 32 = Bytes.word program.bytes.length := by
    rw [hlength]
    simp [Program.bytes, envelope]
  have hwider : Bytes.capacity 8 ≤ Bytes.capacity 32 := by decide
  rw [hword]
  exact Bytes.ofBigEndian_bigEndian_of_lt (Nat.lt_of_lt_of_le hmachine hwider)

theorem Job.patchSafe_of_bytecode_sale : ∃ (data : Bytes) (plan : Plan) (program : Program),
    sale.bytecode = .ok data ∧ Plan.of sale = .ok plan ∧
      readEnvelope plan.shape.reader data = some program ∧ sale.PatchSafe program := by
  obtain ⟨data, hdata⟩ : ∃ data, sale.bytecode = .ok data :=
    exists_eq_ok_of_isSome (by decide +kernel)
  obtain ⟨plan, program, hplan, hread, hsafe, _⟩ := patchSafe_of_bytecode hdata
  exact ⟨data, plan, program, hdata, hplan, hread, hsafe⟩

end SwapCompiler
