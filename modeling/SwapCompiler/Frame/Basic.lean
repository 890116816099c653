import SwapCompiler.Adapter
import SwapCompiler.Field
import SwapCompiler.Flag.Basic

/-!
# Frames

A frame is one call of the interpreter: whom to call, with which body, where
the running amount is patched in, and which balance is read afterwards.  On the
wire it is

`target (20) | body length + 28 (4) | amount offset (2) | token offset (2) |
return position (1) | opcode (1) | flag (2) | zeros (28) | body`.

`Frame.bytes` writes any frame; `Frame.checked` is passed exactly by the frames
that this format can hold.
-/

namespace SwapCompiler

/-- One call of the interpreter. -/
structure Frame where
  target : Address
  /-- Where the running amount is patched into the body; zero for nowhere. -/
  amountOffset : Nat
  /-- Where the word of the token whose balance is read stands; zero for none. -/
  tokenOffset : Nat
  returnPosition : UInt8
  opcode : Opcode
  flag : Flag
  body : Bytes
  deriving DecidableEq

namespace Frame

/-- The zeros between a header and its body, which the length counts. -/
def padding : Nat := 28

/-- The bytes in front of a body. -/
def header (frame : Frame) : Bytes :=
  frame.target.bytes ++
    Bytes.bigEndian 4 (frame.body.length + padding) ++
    Bytes.bigEndian 2 frame.amountOffset ++
    Bytes.bigEndian 2 frame.tokenOffset ++
    [frame.returnPosition, frame.opcode.code] ++
    Bytes.bigEndian 2 frame.flag.code ++
    List.replicate padding 0

/-- The frame on the wire. -/
def bytes (frame : Frame) : Bytes :=
  frame.header ++ frame.body

/-- The frame itself, if its length and offsets fit in their fields. -/
def checked (frame : Frame) : Except Fault Frame := do
  let _ ← field "Frame length" 4 (frame.body.length + padding)
  let _ ← field "fromAmount offset" 2 frame.amountOffset
  let _ ← field "destToken offset" 2 frame.tokenOffset
  .ok frame

/-- The frame on the wire, if it fits there. -/
def encode (frame : Frame) : Except Fault Bytes :=
  frame.checked.map bytes

/-- The length and the two offsets fit in their fields. -/
def Fits (frame : Frame) : Prop :=
  frame.body.length + padding < Bytes.capacity 4 ∧
    frame.amountOffset < Bytes.capacity 2 ∧ frame.tokenOffset < Bytes.capacity 2

instance (frame : Frame) : Decidable frame.Fits :=
  inferInstanceAs (Decidable (_ ∧ _ ∧ _))

@[simp] theorem length_header (frame : Frame) : frame.header.length = 60 := by
  simp [header, frame.target.length_bytes, padding]

@[simp] theorem length_bytes (frame : Frame) :
    frame.bytes.length = frame.body.length + 60 := by
  simp [bytes, Nat.add_comm]

/-- A frame passes the check exactly if it fits, and comes out unchanged. -/
theorem checked_eq_ok_iff {frame result : Frame} :
    frame.checked = .ok result ↔ frame.Fits ∧ result = frame := by
  have hfield : ∀ {name : String} {width value : Nat},
      value < Bytes.capacity width → field name width value = .ok (Bytes.bigEndian width value) :=
    fun h => field_eq_ok_iff.2 ⟨h, rfl⟩
  have hfail : ∀ {name : String} {width value : Nat},
      ¬ value < Bytes.capacity width →
        field name width value = .error (.fieldTooWide name value width) := by
    intro name width value h
    simp [field, Bytes.fixed?, h]
  unfold checked Fits
  by_cases hlength : frame.body.length + padding < Bytes.capacity 4
  · by_cases hamount : frame.amountOffset < Bytes.capacity 2
    · by_cases htoken : frame.tokenOffset < Bytes.capacity 2
      · rw [hfield hlength, hfield hamount, hfield htoken]
        simp only [bind, Except.bind, Except.ok.injEq]
        exact ⟨fun h => ⟨⟨hlength, hamount, htoken⟩, h.symm⟩, fun h => h.2.symm⟩
      · rw [hfield hlength, hfield hamount, hfail htoken]
        simp only [bind, Except.bind, reduceCtorEq, false_iff]
        exact fun h => htoken h.1.2.2
    · rw [hfield hlength, hfail hamount]
      simp only [bind, Except.bind, reduceCtorEq, false_iff]
      exact fun h => hamount h.1.2.1
  · rw [hfail hlength]
    simp only [bind, Except.bind, reduceCtorEq, false_iff]
    exact fun h => hlength h.1.1

end Frame

end SwapCompiler
