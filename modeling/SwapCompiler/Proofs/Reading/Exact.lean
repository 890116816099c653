import SwapCompiler.Proofs.Reading.Wire

/-!
# Readers accept nothing else

A round trip says that written bytes are read back.  Here is the other half: what a
reader takes off the front is what would be written of the value it yields, so that
no two byte strings are read as the same value and no malformed one is read at all.

The laws follow the readers, field by field, up to `Frame.reader_eq_some_iff`.
-/

namespace SwapCompiler

namespace Reader

variable {α β : Type} {bytes rest : Bytes}

/-- Two readers in a row: the second starts where the first stopped. -/
theorem bind_eq_some_iff {reader : Reader α} {next : α → Reader β} {result : β} :
    (reader >>= next) bytes = some (result, rest) ↔
      ∃ value between, reader bytes = some (value, between) ∧
        next value between = some (result, rest) := by
  show ((reader bytes).bind fun pair => next pair.1 pair.2) = _ ↔ _
  simp [Option.bind_eq_some_iff]

theorem map_eq_some_iff {reader : Reader α} {f : α → β} {result : β} :
    (f <$> reader) bytes = some (result, rest) ↔
      ∃ value, reader bytes = some (value, rest) ∧ f value = result := by
  show ((reader bytes).bind fun pair => some (f pair.1, pair.2)) = _ ↔ _
  simp [Option.bind_eq_some_iff, and_comm]

theorem pure_eq_some_iff {value result : α} :
    (pure value : Reader α) bytes = some (result, rest) ↔ result = value ∧ rest = bytes := by
  show some (value, bytes) = _ ↔ _
  simp [eq_comm]

theorem ofOption_eq_some_iff {found : Option α} {value : α} :
    ofOption found bytes = some (value, rest) ↔ found = some value ∧ rest = bytes := by
  cases found <;> simp [ofOption, eq_comm]

theorem take_eq_some_iff {count : Nat} {front : Bytes} :
    take count bytes = some (front, rest) ↔ front.length = count ∧ bytes = front ++ rest := by
  constructor
  · intro h
    unfold take at h
    split at h
    · next hcount =>
        obtain ⟨rfl, rfl⟩ := Prod.mk.inj (Option.some.inj h)
        exact ⟨List.length_take_of_le hcount, (List.take_append_drop count bytes).symm⟩
    · exact nomatch h
  · rintro ⟨rfl, rfl⟩
    exact Reads.take front rest

/-- A number is read off exactly the bytes that it is written on. -/
theorem number_eq_some_iff {width value : Nat} :
    number width bytes = some (value, rest) ↔
      value < Bytes.capacity width ∧ bytes = Bytes.bigEndian width value ++ rest := by
  constructor
  · intro h
    obtain ⟨front, htake, rfl⟩ := map_eq_some_iff.1 h
    obtain ⟨hlength, rfl⟩ := take_eq_some_iff.1 htake
    exact ⟨Bytes.ofBigEndian_lt hlength, by rw [Bytes.bigEndian_ofBigEndian hlength]⟩
  · rintro ⟨hvalue, rfl⟩
    exact Reads.number hvalue rest

theorem byte_eq_some_iff {value : UInt8} :
    byte bytes = some (value, rest) ↔ bytes = value :: rest := by
  constructor
  · intro h
    obtain ⟨front, _, htake, hhead⟩ := bind_eq_some_iff.1 h
    obtain ⟨hlength, rfl⟩ := take_eq_some_iff.1 htake
    obtain ⟨only, rfl⟩ := List.length_eq_one_iff.1 hlength
    obtain ⟨hvalue, rfl⟩ := ofOption_eq_some_iff.1 hhead
    obtain rfl := Option.some.inj hvalue
    rfl
  · rintro rfl
    exact Reads.byte value rest

theorem literal_eq_some_iff {expected : Bytes} :
    literal expected bytes = some ((), rest) ↔ bytes = expected ++ rest := by
  constructor
  · intro h
    obtain ⟨front, _, htake, hfound⟩ := bind_eq_some_iff.1 h
    obtain ⟨_, rfl⟩ := take_eq_some_iff.1 htake
    obtain ⟨hfront, rfl⟩ := ofOption_eq_some_iff.1 hfound
    split at hfront
    · next hexpected => rw [hexpected]
    · exact nomatch hfront
  · rintro rfl
    exact Reads.literal expected rest

/-- Reading to the end leaves nothing. -/
theorem whole_eq_some_iff {reader : Reader α} {value : α} :
    reader.whole bytes = some value ↔ reader bytes = some (value, []) := by
  unfold whole
  split
  · next found hread => simp [hread]
  · next hread =>
      simp only [reduceCtorEq, false_iff]
      exact hread value

end Reader

variable {bytes rest : Bytes}

theorem Address.reader_eq_some_iff {address : Address} :
    reader bytes = some (address, rest) ↔ bytes = address.bytes ++ rest := by
  constructor
  · intro h
    obtain ⟨front, _, htake, hfound⟩ := Reader.bind_eq_some_iff.1 h
    obtain ⟨hlength, rfl⟩ := Reader.take_eq_some_iff.1 htake
    obtain ⟨haddress, rfl⟩ := Reader.ofOption_eq_some_iff.1 hfound
    rw [ofBytes?, dif_pos hlength] at haddress
    obtain rfl := Option.some.inj haddress
    rfl
  · rintro rfl
    exact address.reads rest

theorem Opcode.ofCode?_eq_some_iff {code : UInt8} {opcode : Opcode} :
    ofCode? code = some opcode ↔ code = opcode.code := by
  constructor
  · intro h
    have hcode := List.find?_some h
    exact (of_decide_eq_true hcode).symm
  · rintro rfl
    exact opcode.ofCode?_code

theorem Opcode.reader_eq_some_iff {opcode : Opcode} :
    reader bytes = some (opcode, rest) ↔ bytes = opcode.code :: rest := by
  constructor
  · intro h
    obtain ⟨code, _, hbyte, hfound⟩ := Reader.bind_eq_some_iff.1 h
    obtain ⟨hopcode, rfl⟩ := Reader.ofOption_eq_some_iff.1 hfound
    obtain rfl := ofCode?_eq_some_iff.1 hopcode
    exact Reader.byte_eq_some_iff.1 hbyte
  · rintro rfl
    exact opcode.reads rest

/-- The remainders by four and three of a code below twelve determine it. -/
theorem Flag.ofCode?_eq_some_iff {code : Nat} {flag : Flag} :
    ofCode? code = some flag ↔ code = flag.code := by
  constructor
  · intro h
    have hsmall : ∀ code < 12, ∀ flag ∈ ofCode? code, code = flag.code := by decide
    refine hsmall code ?_ flag h
    by_contra hlarge
    simp [ofCode?, ofCode, hlarge, Except.toOption] at h
  · rintro rfl
    exact flag.ofCode?_code

theorem Flag.reader_eq_some_iff {flag : Flag} :
    reader bytes = some (flag, rest) ↔ bytes = Bytes.bigEndian 2 flag.code ++ rest := by
  constructor
  · intro h
    obtain ⟨code, _, hnumber, hfound⟩ := Reader.bind_eq_some_iff.1 h
    obtain ⟨hflag, rfl⟩ := Reader.ofOption_eq_some_iff.1 hfound
    obtain rfl := ofCode?_eq_some_iff.1 hflag
    exact (Reader.number_eq_some_iff.1 hnumber).2
  · rintro rfl
    exact flag.reads rest

namespace Frame

theorem unpadded?_eq_some_iff {padded body : Bytes} :
    unpadded? padded = some body ↔ padded = List.replicate padding 0 ++ body := by
  constructor
  · intro h
    unfold unpadded? at h
    split at h
    · next hprefix =>
        obtain ⟨tail, rfl⟩ := hprefix
        obtain rfl := Option.some.inj h
        simp
    · exact nomatch h
  · rintro rfl
    simp [unpadded?]

/-- A declared length covers the zeros and the body. -/
theorem bodyReader_eq_some_iff {length : Nat} {body : Bytes} :
    bodyReader length bytes = some (body, rest) ↔
      length = body.length + padding ∧ bytes = List.replicate padding 0 ++ body ++ rest := by
  constructor
  · intro h
    obtain ⟨padded, _, htake, hfound⟩ := Reader.bind_eq_some_iff.1 h
    obtain ⟨hlength, rfl⟩ := Reader.take_eq_some_iff.1 htake
    obtain ⟨hbody, rfl⟩ := Reader.ofOption_eq_some_iff.1 hfound
    obtain rfl := unpadded?_eq_some_iff.1 hbody
    rw [List.length_append, List.length_replicate] at hlength
    exact ⟨by omega, rfl⟩
  · rintro ⟨rfl, rfl⟩
    exact reads_body body rest

/-- The reader takes a frame off a byte string exactly if the frame fits in its
fields and the string starts with it. -/
theorem reader_eq_some_iff {frame : Frame} :
    reader bytes = some (frame, rest) ↔ frame.Fits ∧ bytes = frame.bytes ++ rest := by
  constructor
  · intro h
    obtain ⟨target, _, htarget, h⟩ := Reader.bind_eq_some_iff.1 h
    obtain ⟨length, _, hlength, h⟩ := Reader.bind_eq_some_iff.1 h
    obtain ⟨amountOffset, _, hamount, h⟩ := Reader.bind_eq_some_iff.1 h
    obtain ⟨tokenOffset, _, htoken, h⟩ := Reader.bind_eq_some_iff.1 h
    obtain ⟨returnPosition, _, hreturn, h⟩ := Reader.bind_eq_some_iff.1 h
    obtain ⟨opcode, _, hopcode, h⟩ := Reader.bind_eq_some_iff.1 h
    obtain ⟨flag, _, hflag, h⟩ := Reader.bind_eq_some_iff.1 h
    obtain ⟨body, _, hbody, h⟩ := Reader.bind_eq_some_iff.1 h
    obtain ⟨rfl, rfl⟩ := Reader.pure_eq_some_iff.1 h
    obtain ⟨rfl, rfl⟩ := bodyReader_eq_some_iff.1 hbody
    obtain rfl := Flag.reader_eq_some_iff.1 hflag
    obtain rfl := Opcode.reader_eq_some_iff.1 hopcode
    obtain rfl := Reader.byte_eq_some_iff.1 hreturn
    obtain ⟨htokenFits, rfl⟩ := Reader.number_eq_some_iff.1 htoken
    obtain ⟨hamountFits, rfl⟩ := Reader.number_eq_some_iff.1 hamount
    obtain ⟨hlengthFits, rfl⟩ := Reader.number_eq_some_iff.1 hlength
    obtain rfl := Address.reader_eq_some_iff.1 htarget
    exact ⟨⟨hlengthFits, hamountFits, htokenFits⟩, by simp [Frame.bytes, header]⟩
  · rintro ⟨hfits, rfl⟩
    exact reads hfits rest

end Frame

end SwapCompiler
