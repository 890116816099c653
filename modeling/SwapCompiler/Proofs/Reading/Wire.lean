import SwapCompiler.Branch
import SwapCompiler.Proofs.Reading.Basic
import SwapCompiler.Share

/-!
# Reading frames, shares and branches

The readers of the three wire formats.  They trust the lengths that the bytes
declare and nothing else; the round trips hold for whatever fits its fields.
A share and a branch are read around a reader for the code inside them, which
has to read that code to its end.
-/

namespace SwapCompiler

/-- The next byte. -/
def Reader.byte : Reader UInt8 := do
  let bytes ← Reader.take 1
  Reader.ofOption bytes.head?

theorem Reads.byte (byte : UInt8) : Reads Reader.byte [byte] byte :=
  (Reads.take [byte]).bind_ofOption rfl

namespace Address

/-- Twenty bytes as an address. -/
def reader : Reader Address := do
  let bytes ← Reader.take 20
  Reader.ofOption (ofBytes? bytes)

theorem reads (address : Address) : Reads reader address.bytes address := by
  have htake := Reads.take address.bytes
  rw [address.length_bytes] at htake
  exact htake.bind_ofOption address.ofBytes?_bytes

end Address

namespace Opcode

/-- The opcode with this byte. -/
def ofCode? (code : UInt8) : Option Opcode :=
  all.find? fun opcode => opcode.code = code

theorem ofCode?_code (opcode : Opcode) : ofCode? opcode.code = some opcode := by
  cases opcode <;> decide

/-- The next byte as an opcode. -/
def reader : Reader Opcode := do
  let code ← Reader.byte
  Reader.ofOption (ofCode? code)

theorem reads (opcode : Opcode) : Reads reader [opcode.code] opcode :=
  (Reads.byte opcode.code).bind_ofOption opcode.ofCode?_code

end Opcode

namespace Flag

/-- The flag with this code, if there is one. -/
def ofCode? (code : Nat) : Option Flag :=
  (ofCode code).toOption

theorem ofCode?_code (flag : Flag) : ofCode? flag.code = some flag := by
  rw [ofCode?, ofCode_code]
  rfl

theorem code_lt_capacity (flag : Flag) : flag.code < Bytes.capacity 2 :=
  Nat.lt_trans flag.code_lt (by decide)

/-- The next two bytes as a flag. -/
def reader : Reader Flag := do
  let code ← Reader.number 2
  Reader.ofOption (ofCode? code)

theorem reads (flag : Flag) : Reads reader (Bytes.bigEndian 2 flag.code) flag :=
  (Reads.number flag.code_lt_capacity).bind_ofOption flag.ofCode?_code

end Flag

namespace Frame

/-- A body without the zeros that stand in front of it. -/
def unpadded? (padded : Bytes) : Option Bytes :=
  if List.replicate padding 0 <+: padded then some (padded.drop padding) else none

/-- The body behind a header that declares this length. -/
def bodyReader (length : Nat) : Reader Bytes := do
  let padded ← Reader.take length
  Reader.ofOption (unpadded? padded)

theorem reads_body (body : Bytes) :
    Reads (bodyReader (body.length + padding)) (List.replicate padding 0 ++ body) body := by
  have htake := Reads.take (List.replicate padding 0 ++ body)
  rw [List.length_append, List.length_replicate, Nat.add_comm] at htake
  exact htake.bind_ofOption (by simp [unpadded?])

/-- Reads one frame by its declared length. -/
def reader : Reader Frame := do
  let target ← Address.reader
  let length ← Reader.number 4
  let amountOffset ← Reader.number 2
  let tokenOffset ← Reader.number 2
  let returnPosition ← Reader.byte
  let opcode ← Opcode.reader
  let flag ← Flag.reader
  let body ← bodyReader length
  pure ⟨target, amountOffset, tokenOffset, returnPosition, opcode, flag, body⟩

/-- A frame that fits is read back. -/
theorem reads {frame : Frame} (h : frame.Fits) : Reads reader frame.bytes frame := by
  obtain ⟨hlength, hamount, htoken⟩ := h
  have hbytes : frame.bytes =
      frame.target.bytes ++ (Bytes.bigEndian 4 (frame.body.length + padding) ++
        (Bytes.bigEndian 2 frame.amountOffset ++ (Bytes.bigEndian 2 frame.tokenOffset ++
          ([frame.returnPosition] ++ ([frame.opcode.code] ++ (Bytes.bigEndian 2 frame.flag.code ++
            ((List.replicate padding 0 ++ frame.body) ++ []))))))) := by
    simp [bytes, header]
  rw [hbytes]
  refine (Address.reads frame.target).bind ((Reads.number hlength).bind ?_)
  refine (Reads.number hamount).bind ((Reads.number htoken).bind ?_)
  refine (Reads.byte _).bind ((Opcode.reads _).bind ((Flag.reads _).bind ?_))
  exact (reads_body frame.body).bind (Reads.pure frame)

end Frame

section

variable {α : Type} {inner : Reader α} {body : Bytes} {value : α}

namespace Share

/-- Reads a share and the code that it is a share of. -/
def reader (inner : Reader α) : Reader (Share × α) := do
  let length ← Reader.number 16
  let position ← Reader.number 8
  let hundredths ← Reader.number 8
  let value ← Reader.within length inner
  pure (⟨position, hundredths⟩, value)

/-- The length, the position and the part fit in their fields. -/
def Fits (share : Share) (body : Bytes) : Prop :=
  body.length < Bytes.capacity 16 ∧ share.position < Bytes.capacity 8 ∧
    share.hundredths < Bytes.capacity 8

/-- A share that fits is read back, with what its code is read as. -/
theorem reads {share : Share} (hfits : share.Fits body) (h : inner.whole body = some value) :
    Reads (reader inner) (share.bytes body) (share, value) := by
  obtain ⟨hlength, hposition, hhundredths⟩ := hfits
  have hbytes : share.bytes body =
      Bytes.bigEndian 16 body.length ++ (Bytes.bigEndian 8 share.position ++
        (Bytes.bigEndian 8 share.hundredths ++ (body ++ []))) := by
    simp [Share.bytes, header]
  rw [hbytes]
  refine (Reads.number hlength).bind ((Reads.number hposition).bind ?_)
  exact (Reads.number hhundredths).bind ((Reads.within h).bind (Reads.pure (share, value)))

end Share

namespace Branch

/-- Reads the children out of the body of a branch. -/
def payload (inner : Reader α) : Reader α := do
  Reader.literal (List.replicate 32 0)
  Reader.literal (Bytes.word 32)
  let length ← Reader.number 32
  Reader.within length inner

/-- Reads a branch and the code that it fans out to. -/
def reader (inner : Reader α) : Reader (Branch × α) := do
  let frame ← Frame.reader
  Reader.ofOption <|
    if frame.opcode = .verticalBranch then
      ((payload inner).whole frame.body).map fun value =>
        (⟨frame.target, frame.flag, frame.tokenOffset⟩, value)
    else none

theorem reads_payload (hlength : body.length < Bytes.capacity 32) (h : Reads inner body value) :
    Reads (payload inner) (Branch.body body) value := by
  have hbytes : Branch.body body =
      List.replicate 32 0 ++ (Bytes.word 32 ++ (Bytes.bigEndian 32 body.length ++ body)) := by
    simp [Branch.body, Bytes.word]
  rw [hbytes]
  refine (Reads.literal _).bind ((Reads.literal _).bind ?_)
  exact (Reads.number hlength).bind (Reads.within h.whole)

/-- A branch whose frame fits is read back, with what its children are read
as. -/
theorem reads {branch : Branch} (hfits : (branch.frame body).Fits) (h : Reads inner body value) :
    Reads (reader inner) (branch.frame body).bytes (branch, value) := by
  have hbody : (branch.frame body).body.length = body.length + 96 := length_body body
  have hcapacity : Bytes.capacity 4 ≤ Bytes.capacity 32 := by decide
  -- the frame's length field is the narrower one
  have hlength : body.length < Bytes.capacity 32 := by
    have hframe := hfits.1
    omega
  refine (Frame.reads hfits).bind_ofOption ?_
  have hpayload : (payload inner).whole (branch.frame body).body = some value :=
    (reads_payload hlength h).whole
  rw [hpayload]
  rfl

end Branch

/-- Reads the one dynamic argument of the executor: the word 32, the total
length, the code to its end. -/
def readEnvelope (inner : Reader α) (data : Bytes) : Option α :=
  Reader.whole (do
    Reader.literal (Bytes.word 32)
    Reader.literal (Bytes.word data.length)
    inner) data

theorem readEnvelope_envelope {code : Bytes} (h : Reads inner code value) :
    readEnvelope inner (envelope code) = some value := by
  have hbytes : envelope code =
      Bytes.word 32 ++ (Bytes.word (envelope code).length ++ code) := by
    rw [length_envelope]
    simp [envelope]
  have hread : Reads (do
      Reader.literal (Bytes.word 32)
      Reader.literal (Bytes.word (envelope code).length)
      inner) (envelope code) value := by
    nth_rewrite 2 [hbytes]
    exact (Reads.literal _).bind ((Reads.literal _).bind h)
  exact hread.whole

end

end SwapCompiler
