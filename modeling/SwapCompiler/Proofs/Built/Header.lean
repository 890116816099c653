import SwapCompiler.Compile.Hop
import SwapCompiler.Proofs.Connected

/-!
# What built frames and headers are

Every fallible builder below the compiler, opened once: the frame, share or
branch that it returns, and the bounds that it has checked on the way.
-/

namespace SwapCompiler

namespace Frame

variable {frame : Frame}

/-- A frame that was built and passed the check is the one that was built. -/
theorem bind_checked_eq_ok_iff {build : Except Fault Frame} :
    (build >>= Frame.checked) = .ok frame ↔ build = .ok frame ∧ frame.Fits := by
  rw [bind_eq_ok_iff]
  constructor
  · rintro ⟨built, hbuilt, hchecked⟩
    obtain ⟨hfits, rfl⟩ := checked_eq_ok_iff.1 hchecked
    exact ⟨hbuilt, hfits⟩
  · rintro ⟨hbuilt, hfits⟩
    exact ⟨frame, hbuilt, checked_eq_ok_iff.2 ⟨hfits, rfl⟩⟩

theorem sendNative_fits : sendNative.Fits := by
  decide

theorem sendNative_checked_eq_ok_iff : sendNative.checked = .ok frame ↔ frame = sendNative := by
  rw [checked_eq_ok_iff]
  exact ⟨fun h => h.2, fun h => ⟨sendNative_fits, h⟩⟩

/-- Withdraw calldata must be long enough to hold the amount. -/
theorem unwrap_eq_ok_iff {wrapped : Address} {withdraw : Bytes} {flag : Flag} :
    Frame.unwrap wrapped withdraw flag = .ok frame ↔
      withdrawAmountOffset + 32 ≤ withdraw.length ∧
        frame = ofCalldata wrapped flag (if flag.patches then withdrawAmountOffset else 0)
          withdraw := by
  unfold Frame.unwrap
  split
  · next hshort =>
      simp only [reduceCtorEq, false_iff]
      rintro ⟨hlong, _⟩
      omega
  · next hlong =>
      rw [Except.ok.injEq]
      exact ⟨fun h => ⟨Nat.le_of_not_lt hlong, h.symm⟩, fun h => h.2.symm⟩

end Frame

/-- An exchange call's frame holds the call's own data; only the two offsets are
searched for. -/
theorem Call.frame_eq_ok_iff {call : Call} {frame : Frame} :
    call.frame = .ok frame ↔
      call.tokenOffset = .ok frame.tokenOffset ∧ call.amountOffset = .ok frame.amountOffset ∧
        frame =
          { target := call.target
            amountOffset := frame.amountOffset
            tokenOffset := frame.tokenOffset
            returnPosition := call.returnPosition
            opcode := call.opcode
            flag := call.flag
            body := call.body } := by
  constructor
  · intro h
    obtain ⟨token, htoken, h⟩ := bind_eq_ok_iff.1 h
    obtain ⟨amount, hamount, h⟩ := bind_eq_ok_iff.1 h
    obtain rfl := Except.ok.inj h
    exact ⟨htoken, hamount, rfl⟩
  · rintro ⟨htoken, hamount, hframe⟩
    refine bind_eq_ok_iff.2 ⟨_, htoken, bind_eq_ok_iff.2 ⟨_, hamount, ?_⟩⟩
    rw [← hframe]

theorem Call.body_of_frame {call : Call} {frame : Frame} (h : call.frame = .ok frame) :
    frame.body = call.body := by
  obtain ⟨_, _, hframe⟩ := frame_eq_ok_iff.1 h
  rw [hframe]

theorem Call.flag_of_frame {call : Call} {frame : Frame} (h : call.frame = .ok frame) :
    frame.flag = call.flag := by
  obtain ⟨_, _, hframe⟩ := frame_eq_ok_iff.1 h
  rw [hframe]

namespace Share

/-- A share that was built fits its fields. -/
theorem of_eq_ok_iff {percent : Float} {source : ShareSource} {body : Bytes} {share : Share} :
    Share.of percent source body = .ok share ↔
      positionOf percent source body = .ok share.position ∧
        share.hundredths = hundredthsOf percent ∧
        body.length < Bytes.capacity 16 ∧ share.position < Bytes.capacity 8 := by
  constructor
  · intro h
    obtain ⟨position, hposition, h⟩ := bind_eq_ok_iff.1 h
    obtain ⟨_, hlength, h⟩ := bind_eq_ok_iff.1 h
    obtain ⟨_, hfits, h⟩ := bind_eq_ok_iff.1 h
    obtain rfl := Except.ok.inj h
    exact ⟨hposition, rfl, (field_eq_ok_iff.1 hlength).1, (field_eq_ok_iff.1 hfits).1⟩
  · rintro ⟨hposition, hhundredths, hlength, hfits⟩
    refine bind_eq_ok_iff.2 ⟨_, hposition, bind_eq_ok_iff.2
      ⟨_, field_eq_ok_iff.2 ⟨hlength, rfl⟩, bind_eq_ok_iff.2
        ⟨_, field_eq_ok_iff.2 ⟨hfits, rfl⟩, ?_⟩⟩⟩
    rw [← hhundredths]

end Share

namespace Branch

/-- A branch that reads a token's balance has found the token's word in its
body; another branch has no token offset. -/
theorem of_eq_ok_iff {executor token : Address} {flag : Flag} {children : Bytes}
    {branch : Branch} :
    Branch.of executor flag (some token) children = .ok branch ↔
      branch.executor = executor ∧ branch.flag = flag ∧
        if flag.checksToken then
          Bytes.firstIndex? token.word (body children) = some branch.tokenOffset
        else branch.tokenOffset = 0 := by
  unfold Branch.of
  split
  · constructor
    · intro h
      obtain ⟨index, hindex, h⟩ := bind_eq_ok_iff.1 h
      obtain rfl := Except.ok.inj h
      exact ⟨rfl, rfl, locate_eq_ok_iff.1 hindex⟩
    · rintro ⟨rfl, rfl, hindex⟩
      exact bind_eq_ok_iff.2 ⟨_, locate_eq_ok_iff.2 hindex, rfl⟩
  · obtain ⟨found, chosen, offset⟩ := branch
    simp only [Except.ok.injEq, Branch.mk.injEq]
    exact ⟨fun ⟨h₁, h₂, h₃⟩ => ⟨h₁.symm, h₂.symm, h₃.symm⟩,
      fun ⟨h₁, h₂, h₃⟩ => ⟨h₁.symm, h₂.symm, h₃.symm⟩⟩

/-- A branch that was built and whose frame passed the check. -/
theorem bind_checked_eq_ok_iff {build : Except Fault Branch} {children : Bytes}
    {branch : Branch} :
    (do
        let branch ← build
        let _ ← (branch.frame children).checked
        Except.ok branch) = .ok branch ↔
      build = .ok branch ∧ (branch.frame children).Fits := by
  constructor
  · intro h
    obtain ⟨built, hbuilt, h⟩ := bind_eq_ok_iff.1 h
    obtain ⟨_, hchecked, h⟩ := bind_eq_ok_iff.1 h
    obtain rfl := Except.ok.inj h
    exact ⟨hbuilt, (Frame.checked_eq_ok_iff.1 hchecked).1⟩
  · rintro ⟨hbuilt, hfits⟩
    exact bind_eq_ok_iff.2 ⟨branch, hbuilt,
      bind_eq_ok_iff.2 ⟨_, Frame.checked_eq_ok_iff.2 ⟨hfits, rfl⟩, rfl⟩⟩

end Branch

namespace Plan

variable {plan : Plan} {frame : Frame}

theorem wrapFrame_eq_ok_iff :
    plan.wrapFrame = .ok frame ↔
      ∃ deposit, plan.deposit? = some deposit ∧
        frame = Frame.wrap plan.network.wrapped deposit ∧ frame.Fits := by
  unfold Plan.wrapFrame Job.deposit
  cases plan.deposit? with
  | none => simp [bind, Except.bind]
  | some deposit =>
      simp only [bind, Except.bind, Frame.checked_eq_ok_iff, Option.some.injEq, exists_eq_left']
      exact ⟨fun ⟨hfits, h⟩ => ⟨h, h ▸ hfits⟩, fun ⟨h, hfits⟩ => ⟨h ▸ hfits, h⟩⟩

theorem unwrapFrame_eq_ok_iff {flag : Flag} :
    plan.unwrapFrame flag = .ok frame ↔
      ∃ withdraw, plan.withdraw? = some withdraw ∧
        Frame.unwrap plan.network.wrapped withdraw flag = .ok frame ∧ frame.Fits := by
  unfold Plan.unwrapFrame Job.withdraw
  cases plan.withdraw? with
  | none => simp [bind, Except.bind]
  | some withdraw =>
      simp only [Option.some.injEq, exists_eq_left']
      exact Frame.bind_checked_eq_ok_iff

end Plan

end SwapCompiler
