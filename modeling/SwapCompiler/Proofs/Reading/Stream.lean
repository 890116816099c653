import SwapCompiler.Proofs.Outcome
import SwapCompiler.Proofs.Reading.Exact

/-!
# Reading one record after the other

Frames stand back to back, with nothing between them and no count in front: a reader
finds the next one by the declared length of the one before, until no byte is left.

* `Reader.stream` is that loop, for records of any kind.
* `Reader.stream_flatMap` and `Reader.of_stream` lift what a reader does with one
  record to a list of them: written records are read back, and nothing else is read.
* `Frame.encodeAll_decodes` is the result for frames.
-/

namespace SwapCompiler

namespace Reader

variable {α : Type} {reader : Reader α} {bytes : Bytes} {values : List α}

/-- Reads records until no byte is left.  A record that takes no byte is refused, since
it could be read for ever. -/
def stream (reader : Reader α) : Bytes → Option (List α)
  | [] => some []
  | byte :: bytes =>
      match reader (byte :: bytes) with
      | none => none
      | some (value, rest) =>
          if _ : rest.length ≤ bytes.length then (stream reader rest).map (value :: ·)
          else none
  termination_by bytes => bytes.length

@[simp] theorem stream_nil : stream reader [] = some [] := by
  rw [stream]

/-- A record that was taken off the front heads the list. -/
theorem stream_of_take {value : α} {rest : Bytes} (h : reader bytes = some (value, rest))
    (hlength : rest.length < bytes.length) :
    stream reader bytes = (stream reader rest).map (value :: ·) := by
  cases bytes with
  | nil => exact absurd hlength (Nat.not_lt_zero _)
  | cons byte bytes =>
      rw [stream, h]
      exact dif_pos (Nat.le_of_lt_succ hlength)

/-- What heads the list was taken off the front. -/
theorem take_of_stream {value : α} (h : stream reader bytes = some (value :: values)) :
    ∃ rest, reader bytes = some (value, rest) ∧ rest.length < bytes.length ∧
      stream reader rest = some values := by
  cases bytes with
  | nil => simp at h
  | cons byte bytes =>
      rw [stream] at h
      split at h
      · exact nomatch h
      · next found rest hread =>
          split at h
          · next hlength =>
              obtain ⟨later, hlater, heq⟩ := Option.map_eq_some_iff.1 h
              obtain ⟨rfl, rfl⟩ := List.cons.inj heq
              exact ⟨rest, hread, Nat.lt_succ_of_le hlength, hlater⟩
          · exact nomatch h

theorem stream_eq_some_nil_iff : stream reader bytes = some [] ↔ bytes = [] := by
  constructor
  · intro h
    cases bytes with
    | nil => rfl
    | cons byte bytes =>
        rw [stream] at h
        split at h
        · exact nomatch h
        · split at h
          · simp at h
          · exact nomatch h
  · rintro rfl
    exact stream_nil

/-- Records that are read back one by one are read back in a row. -/
theorem stream_flatMap {write : α → Bytes}
    (h : ∀ value ∈ values, Reads reader (write value) value ∧ write value ≠ []) :
    stream reader (values.flatMap write) = some values := by
  induction values with
  | nil => exact stream_nil
  | cons value rest ih =>
      obtain ⟨⟨hread, hwrite⟩, hrest⟩ := List.forall_mem_cons.1 h
      have hlength : (rest.flatMap write).length <
          (write value ++ rest.flatMap write).length := by
        have hpositive := List.length_pos_iff.2 hwrite
        rw [List.length_append]
        omega
      rw [List.flatMap_cons, stream_of_take (hread (rest.flatMap write)) hlength, ih hrest,
        Option.map_some]

/-- If whatever a reader takes off is well-formed and as it would be written, then so is
every list of records that it reads in a row. -/
theorem of_stream {good : α → Prop} {write : α → Bytes}
    (hreader : ∀ {bytes rest : Bytes} {value : α}, reader bytes = some (value, rest) →
      good value ∧ bytes = write value ++ rest)
    (h : stream reader bytes = some values) :
    (∀ value ∈ values, good value) ∧ bytes = values.flatMap write := by
  induction values generalizing bytes with
  | nil =>
      obtain rfl := stream_eq_some_nil_iff.1 h
      simp
  | cons value values ih =>
      obtain ⟨rest, hread, _, hrest⟩ := take_of_stream h
      obtain ⟨hgood, rfl⟩ := hreader hread
      obtain ⟨hothers, rfl⟩ := ih hrest
      exact ⟨List.forall_mem_cons.2 ⟨hgood, hothers⟩, List.flatMap_cons.symm⟩

end Reader

namespace Frame

/-- The encodings of some frames, back to back, if all of them fit. -/
def encodeAll (frames : List Frame) : Except Fault Bytes :=
  (frames.mapM encode).map List.flatten

variable {frame : Frame} {frames : List Frame} {data : Bytes}

theorem bytes_ne_nil (frame : Frame) : frame.bytes ≠ [] := by
  rw [← List.length_pos_iff, length_bytes]
  omega

/-- A frame is encoded exactly if it fits, and then as it is written. -/
theorem encode_eq_ok_iff : frame.encode = .ok data ↔ frame.Fits ∧ data = frame.bytes := by
  rw [encode, map_eq_ok_iff]
  constructor
  · rintro ⟨result, hresult, rfl⟩
    obtain ⟨hfits, rfl⟩ := checked_eq_ok_iff.1 hresult
    exact ⟨hfits, rfl⟩
  · rintro ⟨hfits, rfl⟩
    exact ⟨frame, checked_eq_ok_iff.2 ⟨hfits, rfl⟩, rfl⟩

theorem encodeAll_eq_ok_iff :
    encodeAll frames = .ok data ↔
      (∀ frame ∈ frames, frame.Fits) ∧ data = frames.flatMap Frame.bytes := by
  rw [encodeAll, map_eq_ok_iff]
  simp only [mapM_eq_ok_iff, encode_eq_ok_iff]
  constructor
  · rintro ⟨blocks, hblocks, rfl⟩
    induction hblocks with
    | nil => simp
    | @cons frame block frames blocks hhead _ ih =>
        obtain ⟨hfits, rfl⟩ := hhead
        obtain ⟨hothers, hbytes⟩ := ih
        refine ⟨List.forall_mem_cons.2 ⟨hfits, hothers⟩, ?_⟩
        rw [List.flatten_cons, List.flatMap_cons, hbytes]
  · rintro ⟨hfits, rfl⟩
    refine ⟨frames.map Frame.bytes, ?_, rfl⟩
    rw [List.forall₂_map_right_iff, List.forall₂_same]
    exact fun frame hframe => ⟨hfits frame hframe, rfl⟩

/-- Reading by declared lengths undoes encoding, and reads nothing that was not encoded. -/
theorem stream_eq_some_iff :
    reader.stream data = some frames ↔ encodeAll frames = .ok data := by
  rw [encodeAll_eq_ok_iff]
  constructor
  · exact Reader.of_stream fun hread => reader_eq_some_iff.1 hread
  · rintro ⟨hfits, rfl⟩
    exact Reader.stream_flatMap fun frame hframe => ⟨reads (hfits frame hframe), frame.bytes_ne_nil⟩

theorem fits_iff :
    frame.Fits ↔ frame.body.length + 28 < 0x100000000 ∧ frame.amountOffset < 0x10000 ∧
      frame.tokenOffset < 0x10000 := by
  have hfour : Bytes.capacity 4 = 0x100000000 := by decide
  have htwo : Bytes.capacity 2 = 0x10000 := by decide
  rw [Fits, hfour, htwo, padding]

/-- A frame is encoded exactly if its length and its two offsets fit in four, two and two
bytes.  Some frames are encoded back to back exactly if each of them is; reading the bytes by
the declared lengths gives exactly these frames back, and so no other frames are
encoded to the same bytes. -/
theorem encodeAll_decodes :
    (∀ frame : Frame, (∃ data, frame.encode = .ok data) ↔
      frame.body.length + 28 < 0x100000000 ∧ frame.amountOffset < 0x10000 ∧
        frame.tokenOffset < 0x10000) ∧
    (∀ frames, (∃ data, encodeAll frames = .ok data) ↔
      ∀ frame ∈ frames, ∃ data, frame.encode = .ok data) ∧
    (∀ frames data, encodeAll frames = .ok data ↔ reader.stream data = some frames) ∧
    ∀ frames others data, encodeAll frames = .ok data → encodeAll others = .ok data →
      others = frames := by
  refine ⟨fun frame => ?_, fun frames => ?_, fun frames data => stream_eq_some_iff.symm, ?_⟩
  · simp only [encode_eq_ok_iff, exists_and_left, exists_eq, and_true, fits_iff]
  · simp only [encodeAll_eq_ok_iff, encode_eq_ok_iff, exists_and_left, exists_eq, and_true]
  · intro frames others data hframes hothers
    have hread := stream_eq_some_iff.2 hframes
    rw [stream_eq_some_iff.2 hothers] at hread
    exact Option.some.inj hread

/-- Three bytes of calldata and the frame that sends the native balance on, in a row. -/
theorem encodeAll_decodes_two :
    let frames := [ofCalldata Address.zero ⟨.data, .token⟩ 1 [7, 8, 9], sendNative]
    encodeAll frames = .ok (frames.flatMap Frame.bytes) ∧
      reader.stream (frames.flatMap Frame.bytes) = some frames ∧
      ∀ others, encodeAll others = .ok (frames.flatMap Frame.bytes) → others = frames := by
  intro frames
  have hencoded : encodeAll frames = .ok (frames.flatMap Frame.bytes) := by decide
  exact ⟨hencoded, (encodeAll_decodes.2.2.1 _ _).1 hencoded,
    fun others hothers => encodeAll_decodes.2.2.2 _ _ _ hencoded hothers⟩

end Frame

end SwapCompiler
