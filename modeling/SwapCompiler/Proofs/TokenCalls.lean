import SwapCompiler.Proofs.Built.Offset
import SwapCompiler.Proofs.Overlap
import SwapCompiler.Proofs.Reading.Exact

/-!
# The calls of token contracts

Allowances and transfers are calls of functions that take an address and an amount.  Their
calldata should be the selector and two words, and the running amount should be written
over the second.

* `TokenFunction.arguments?` reads the arguments of such a call, and accepts nothing but
  the selector and the two words (`TokenFunction.arguments?_eq_some_iff`).
* `TokenFunction.decodes_frame`: the arguments are read back from the frame unless
  the address is the number 32, whose word is taken for the head of a dynamic argument
  and left out.
* `TokenFunction.amountOffset_eq_iff`: the amount is patched at its place unless it is one
  of at most 36 numbers, given by the selector and the address, whose words occur earlier.
-/

namespace SwapCompiler

/-- A function of a token contract that takes an address and an amount. -/
inductive TokenFunction
  | approve
  | transfer
  deriving DecidableEq

namespace TokenFunction

def signature : TokenFunction → String
  | approve => "approve(address,uint256)"
  | transfer => "transfer(address,uint256)"

/-- The first bytes of every call of the function. -/
def selector (function : TokenFunction) : Bytes :=
  SwapCompiler.selector function.signature

/-- The frame of a call of the function. -/
def frame : TokenFunction → Address → Address → Nat → Except Fault Frame
  | approve => Frame.approve
  | transfer => Frame.transfer

/-- Reads a call of the function: the selector, an address on a word, an amount. -/
def reader (function : TokenFunction) : Reader (Address × Nat) := do
  Reader.literal function.selector
  Reader.literal (List.replicate 12 0)
  let party ← Address.reader
  let amount ← Reader.number 32
  pure (party, amount)

/-- The arguments of a call of the function. -/
def arguments? (function : TokenFunction) (calldata : Bytes) : Option (Address × Nat) :=
  function.reader.whole calldata

variable {function : TokenFunction} {token party : Address} {amount : Nat} {frame : Frame}

theorem selector_eq (function : TokenFunction) :
    function.selector = match function with
      | approve => approveSelector
      | transfer => transferSelector := by
  cases function with
  | approve => decide +kernel
  | transfer => decide +kernel

theorem length_selector (function : TokenFunction) : function.selector.length = 4 := by
  rw [selector_eq]
  cases function <;> rfl

theorem ne_zero_of_mem_selector {byte : UInt8} (h : byte ∈ function.selector) : byte ≠ 0 := by
  have hall : function.selector.all (· != 0) = true := by
    rw [selector_eq]
    cases function <;> rfl
  simpa using List.all_eq_true.1 hall byte h

theorem frame_eq (function : TokenFunction) (token party : Address) (amount : Nat) :
    function.frame token party amount =
      Frame.ofAmountCall function.selector token party amount := by
  rw [selector_eq]
  cases function <;> rfl

/-! ## The arguments -/

/-- The reader accepts exactly the selector and the words of the two arguments. -/
theorem arguments?_eq_some_iff {calldata : Bytes} :
    function.arguments? calldata = some (party, amount) ↔
      amount < Bytes.capacity 32 ∧
        calldata = function.selector ++ party.word ++ Bytes.word amount := by
  rw [arguments?, Reader.whole_eq_some_iff]
  constructor
  · intro h
    obtain ⟨_, _, hselector, h⟩ := Reader.bind_eq_some_iff.1 h
    obtain ⟨_, _, hzeros, h⟩ := Reader.bind_eq_some_iff.1 h
    obtain ⟨found, _, hparty, h⟩ := Reader.bind_eq_some_iff.1 h
    obtain ⟨value, _, hamount, h⟩ := Reader.bind_eq_some_iff.1 h
    obtain ⟨harguments, rfl⟩ := Reader.pure_eq_some_iff.1 h
    obtain ⟨rfl, rfl⟩ := Prod.mk.inj harguments
    obtain ⟨hfits, hbytes⟩ := Reader.number_eq_some_iff.1 hamount
    refine ⟨hfits, ?_⟩
    rw [Reader.literal_eq_some_iff.1 hselector, Reader.literal_eq_some_iff.1 hzeros,
      Address.reader_eq_some_iff.1 hparty, hbytes]
    simp [Address.word, Bytes.word]
  · rintro ⟨hfits, rfl⟩
    have hread : Reads function.reader
        (function.selector ++ (List.replicate 12 0 ++ (party.bytes ++
          (Bytes.bigEndian 32 amount ++ [])))) (party, amount) := by
      refine (Reads.literal _).bind ((Reads.literal _).bind ?_)
      exact (Address.reads party).bind ((Reads.number hfits).bind (Reads.pure _))
    have hend := hread []
    simpa [Address.word, Bytes.word] using hend

/-- Calldata of any other length have no arguments. -/
theorem arguments?_eq_none {calldata : Bytes} (h : calldata.length ≠ 68) :
    function.arguments? calldata = none := by
  cases hread : function.arguments? calldata with
  | none => rfl
  | some arguments =>
      rw [(arguments?_eq_some_iff.1 hread).2] at h
      simp [length_selector] at h

end TokenFunction

/-- An address is determined by its word. -/
theorem Address.word_injective : Function.Injective Address.word := by
  intro first second h
  have hbytes : first.bytes = second.bytes := List.append_cancel_left h
  cases first
  cases second
  congr

/-- The address whose word is the number 32 is left out of the calldata. -/
theorem callData_party (selector : Bytes) (party : Address) (amount : Nat) :
    callData selector (party.word ++ Bytes.word amount) =
      selector ++ (if party = .ofNat 32 then [] else party.word) ++ Bytes.word amount := by
  have hhead : (party.word ++ Bytes.word amount).take 32 = party.word :=
    List.take_left' party.length_word
  have htail : (party.word ++ Bytes.word amount).drop 32 = Bytes.word amount :=
    List.drop_left' party.length_word
  have hword : Bytes.word 32 = (Address.ofNat 32).word := by decide
  have hleft : (32 < (party.word ++ Bytes.word amount).length ∧
      (party.word ++ Bytes.word amount).take 32 = Bytes.word 32) ↔ party = .ofNat 32 := by
    rw [hhead, hword, Address.word_injective.eq_iff]
    simp
  simp only [callData, hleft, htail]
  split <;> simp

namespace TokenFunction

variable {function : TokenFunction} {token party : Address} {amount : Nat} {frame : Frame}

theorem exists_frame (function : TokenFunction) (token party : Address) {amount : Nat}
    (hfits : amount < Bytes.capacity 32) :
    ∃ frame, function.frame token party amount = .ok frame := by
  rw [frame_eq]
  exact Frame.exists_ofAmountCall hfits

theorem target_of_frame (h : function.frame token party amount = .ok frame) :
    frame.target = token := by
  rw [frame_eq] at h
  exact (Frame.spec_ofAmountCall h).1

theorem body_of_frame (h : function.frame token party amount = .ok frame) :
    frame.body =
      function.selector ++ (if party = .ofNat 32 then [] else party.word) ++
        Bytes.word amount := by
  rw [frame_eq] at h
  obtain ⟨_, _, _, rfl⟩ := Frame.ofAmountCall_eq_ok_iff.1 h
  exact callData_party _ _ _

theorem length_body (h : function.frame token party amount = .ok frame) :
    frame.body.length = if party = .ofNat 32 then 36 else 68 := by
  rw [body_of_frame h]
  split <;> simp [length_selector]

/-- The arguments of a call are read back from its frame with every amount that fits in a
word and every address but one, whose word is missing. -/
theorem decodes_frame (function : TokenFunction) (token party : Address) {amount : Nat}
    (hfits : amount < Bytes.capacity 32) :
    ∃ frame, function.frame token party amount = .ok frame ∧ frame.target = token ∧
      (party ≠ .ofNat 32 →
        frame.body = function.selector ++ party.word ++ Bytes.word amount ∧
          frame.body.length = 68 ∧ function.arguments? frame.body = some (party, amount)) ∧
      (party = .ofNat 32 →
        frame.body = function.selector ++ Bytes.word amount ∧
          frame.body.length = 36 ∧ function.arguments? frame.body = none) := by
  obtain ⟨frame, hframe⟩ := exists_frame function token party hfits
  have hbody := body_of_frame hframe
  have hlength := length_body hframe
  refine ⟨frame, hframe, target_of_frame hframe, fun hparty => ?_, fun hparty => ?_⟩
  · rw [if_neg hparty] at hbody hlength
    exact ⟨hbody, hlength, arguments?_eq_some_iff.2 ⟨hfits, hbody⟩⟩
  · rw [if_pos hparty] at hbody hlength
    rw [List.append_nil] at hbody
    exact ⟨hbody, hlength, arguments?_eq_none (by rw [hlength]; decide)⟩

theorem decodes_frame_payment : ∃ frame,
    TokenFunction.transfer.frame (.ofNat 5) (.ofNat 6) 1000 = .ok frame ∧
      frame.body.length = 68 ∧
      TokenFunction.transfer.arguments? frame.body = some (.ofNat 6, 1000) := by
  obtain ⟨frame, hframe, _, hdecodes, _⟩ :=
    decodes_frame .transfer (.ofNat 5) (.ofNat 6) (show 1000 < Bytes.capacity 32 by decide)
  obtain ⟨_, hlength, harguments⟩ := hdecodes (by decide)
  exact ⟨frame, hframe, hlength, harguments⟩

/-- The spender with the number 32 is left out of an allowance. -/
theorem not_decodes_allowance : ∃ frame,
    TokenFunction.approve.frame (.ofNat 5) (.ofNat 32) 1000 = .ok frame ∧
      frame.body = approveSelector ++ Bytes.word 1000 ∧
      TokenFunction.approve.arguments? frame.body = none := by
  obtain ⟨frame, hframe⟩ :=
    exists_frame .approve (.ofNat 5) (.ofNat 32) (show 1000 < Bytes.capacity 32 by decide)
  refine ⟨frame, hframe, ?_, arguments?_eq_none ?_⟩
  · rw [body_of_frame hframe, if_pos rfl, List.append_nil, selector_eq]
  · rw [length_body hframe, if_pos rfl]
    decide

/-! ## The place of the amount -/

/-- The calldata in front of the amount. -/
def head (function : TokenFunction) (party : Address) : Bytes :=
  function.selector ++ party.word

/-- The amounts whose words stand in the calldata before their place: for each start the number
of the word that repeats the bytes from there up to the place. -/
def strayAmounts (function : TokenFunction) (party : Address) : List Nat :=
  (List.range 36).map fun start =>
    Bytes.ofBigEndian (Bytes.repeated 32 ((function.head party).drop start))

theorem length_head (function : TokenFunction) (party : Address) :
    (function.head party).length = 36 := by
  simp [head, length_selector]

theorem getElem?_head (function : TokenFunction) (party : Address) (place : Nat) :
    (function.head party)[16 + place]? = party.bytes[place]? := by
  have hlength : (function.selector ++ List.replicate 12 0).length = 16 := by
    simp [length_selector]
  rw [head, Address.word, ← List.append_assoc, List.getElem?_append_right (by omega), hlength,
    Nat.add_sub_cancel_left]

/-- A frame whose address is not left out searches for the amount behind the selector and
the address. -/
theorem firstIndex?_of_frame (h : function.frame token party amount = .ok frame)
    (hbody : frame.body.length = 68) :
    amount < Bytes.capacity 32 ∧
      Bytes.firstIndex? (Bytes.word amount) (function.head party ++ Bytes.word amount) =
        some frame.amountOffset := by
  have hparty : party ≠ .ofNat 32 := by
    rintro rfl
    rw [length_body h, if_pos rfl] at hbody
    exact absurd hbody (by decide)
  rw [frame_eq] at h
  obtain ⟨hfits, index, hindex, rfl⟩ := Frame.ofAmountCall_eq_ok_iff.1 h
  rw [callData_party, if_neg hparty] at hindex
  exact ⟨hfits, hindex⟩

/-- The amount is found at its place unless it is stray. -/
theorem amountOffset_eq_iff_not_mem (h : function.frame token party amount = .ok frame)
    (hbody : frame.body.length = 68) :
    frame.amountOffset = 36 ↔ amount ∉ function.strayAmounts party := by
  obtain ⟨hfits, hindex⟩ := firstIndex?_of_frame h hbody
  calc frame.amountOffset = 36 ↔
      Bytes.firstIndex? (Bytes.word amount) (function.head party ++ Bytes.word amount) =
        some (function.head party).length := by
          rw [hindex, length_head, Option.some.injEq]
    _ ↔ ∀ start < (function.head party).length, Bytes.word amount ≠
        Bytes.repeated (Bytes.word amount).length ((function.head party).drop start) :=
          Bytes.firstIndex?_append_self_iff (Bytes.word_ne_nil amount)
    _ ↔ amount ∉ function.strayAmounts party := by
          simp only [length_head, Bytes.length_word, ne_eq,
            Bytes.word_eq_iff hfits (Bytes.length_repeated _ _)]
          simp [strayAmounts, eq_comm]

/-- A word that begins before its place reads, up to there, as the calldata in front of it. -/
theorem getElem?_word_of_occursAt {start place : Nat}
    (h : Bytes.OccursAt (Bytes.word amount) start (function.head party ++ Bytes.word amount))
    (hstart : start ≤ place) (hinside : place < start + 32) (hplace : place < 36) :
    (Bytes.word amount)[place - start]? = (function.head party)[place]? := by
  have hlength : place - start < (Bytes.word amount).length := by
    rw [Bytes.length_word]
    omega
  have hread := h.getElem? hlength
  rw [Nat.add_sub_cancel' hstart, List.getElem?_append_left (by rwa [length_head])] at hread
  rw [hread, List.getElem?_eq_getElem hlength]

/-- No word that begins with a zero begins inside the selector. -/
theorem four_le_of_occursAt {start : Nat} (hsmall : amount < Bytes.capacity 31)
    (h : Bytes.OccursAt (Bytes.word amount) start (function.head party ++ Bytes.word amount)) :
    4 ≤ start := by
  by_contra hstart
  have hlength := function.length_selector
  have hread := getElem?_word_of_occursAt h (Nat.le_refl start) (by omega) (by omega)
  have hzero := Bytes.getElem?_word_of_lt (show 1 + 31 = 32 from rfl) hsmall Nat.zero_lt_one
  rw [Nat.sub_self, hzero, head, List.getElem?_append_left (by omega)] at hread
  exact ne_zero_of_mem_selector (List.mem_of_getElem? hread.symm) rfl

/-- A word that begins before the address, or in it, reads as the address goes on. -/
theorem getElem?_bytes_of_occursAt {start place : Nat}
    (h : Bytes.OccursAt (Bytes.word amount) start (function.head party ++ Bytes.word amount))
    (hstart : start ≤ 16 + place) (hplace : place < 20) (hinside : 16 + place < start + 32) :
    (Bytes.word amount)[16 + place - start]? = party.bytes[place]? := by
  rw [← getElem?_head function]
  exact getElem?_word_of_occursAt h hstart hinside (by omega)

/-- No word that begins with twenty zeros begins before the address, or with it, unless the
address begins with eight zeros. -/
theorem sixteen_lt_of_occursAt {start : Nat} (hsmall : amount < Bytes.capacity 12)
    (hparty : ∃ byte ∈ party.bytes.take 8, byte ≠ 0)
    (h : Bytes.OccursAt (Bytes.word amount) start (function.head party ++ Bytes.word amount)) :
    16 < start := by
  by_contra hearly
  have hfour := four_le_of_occursAt (Nat.lt_trans hsmall (by decide)) h
  obtain ⟨byte, hbyte, hnonzero⟩ := hparty
  obtain ⟨place, hfound⟩ := List.mem_iff_getElem?.1 hbyte
  obtain ⟨hplace, hfound⟩ : place < 8 ∧ party.bytes[place]? = some byte := by
    simpa [List.getElem?_take] using hfound
  -- the zeros at the front of the word cover this byte of the address
  have hread := getElem?_bytes_of_occursAt h (show start ≤ 16 + place by omega) (by omega)
    (by omega)
  rw [Bytes.getElem?_word_of_lt (show 20 + 12 = 32 from rfl) hsmall (by omega), hfound] at hread
  exact hnonzero (Option.some.inj hread).symm

theorem amountOffset_le (h : function.frame token party amount = .ok frame)
    (hbody : frame.body.length = 68) : frame.amountOffset ≤ 36 := by
  apply Bytes.le_of_occursAt (firstIndex?_of_frame h hbody).2
  rw [Bytes.OccursAt, List.drop_left' (length_head function party)]

/-- A zero is found at its place unless the address ends in a zero. -/
theorem amountOffset_zero (h : function.frame token party 0 = .ok frame)
    (hbody : frame.body.length = 68) :
    frame.amountOffset = 36 ↔ party.bytes.getLast? ≠ some 0 := by
  obtain ⟨_, hindex⟩ := firstIndex?_of_frame h hbody
  have hlast : party.bytes.getLast? = party.bytes[19]? := by
    rw [List.getLast?_eq_getElem?, party.length_bytes]
  rw [hlast]
  constructor
  · intro hplace hzero
    -- the last byte of the address and all but the last of the amount are a zero, too
    have hrest : (function.head party).drop 35 = [0] := by
      rw [← getElem?_head, List.getElem?_eq_some_iff] at hzero
      obtain ⟨hinside, hzero⟩ := hzero
      rw [List.drop_eq_getElem_cons hinside, hzero,
        List.drop_eq_nil_of_le (by rw [length_head])]
    have hoccurs : Bytes.OccursAt (Bytes.word 0) 35 (function.head party ++ Bytes.word 0) := by
      rw [Bytes.occursAt_append_self_iff (by rw [length_head]; decide), hrest]
      decide
    have hle := Bytes.le_of_occursAt hindex hoccurs
    omega
  · intro hnonzero
    by_contra hplace
    have hle := amountOffset_le h hbody
    have hoccurs := Bytes.occursAt_of_firstIndex? hindex
    have hfour := four_le_of_occursAt (by decide) hoccurs
    have hread := getElem?_bytes_of_occursAt hoccurs (show frame.amountOffset ≤ 16 + 19 by omega)
      (by decide) (by omega)
    apply hnonzero
    rw [← hread]
    exact Bytes.getElem?_word_of_lt (show 32 + 0 = 32 from rfl) (by decide) (by omega)

/-- A common amount is found at its place: one below 2^96 that is not zero, with an address
that does not begin with eight zeros. -/
theorem amountOffset_of_lt (h : function.frame token party amount = .ok frame)
    (hbody : frame.body.length = 68) (hpositive : 0 < amount) (hsmall : amount < Bytes.capacity 12)
    (hparty : ∃ byte ∈ party.bytes.take 8, byte ≠ 0) : frame.amountOffset = 36 := by
  obtain ⟨hfits, hindex⟩ := firstIndex?_of_frame h hbody
  have hoccurs := Bytes.occursAt_of_firstIndex? hindex
  have hle := amountOffset_le h hbody
  have hlate := sixteen_lt_of_occursAt hsmall hparty hoccurs
  by_contra hplace
  -- the word would repeat some of the zeros at its front
  have hword := hoccurs.eq_replicate_zero (by rw [length_head]; omega) fun place hinside => by
    rw [length_head] at hinside
    exact Bytes.getElem?_word_of_lt (show 20 + 12 = 32 from rfl) hsmall (by omega)
  rw [Bytes.word_eq_iff hfits (by simp), Bytes.length_word] at hword
  have hzero : Bytes.ofBigEndian (List.replicate 32 0) = 0 := by decide
  omega

/-- The amount is patched at its place exactly if it is none of the stray amounts, and over
bytes of the address otherwise.  A zero is stray for addresses that end in a zero; common
amounts are stray only for addresses that begin with eight zeros. -/
theorem amountOffset_eq_iff (h : function.frame token party amount = .ok frame)
    (hbody : frame.body.length = 68) :
    (frame.amountOffset = 36 ↔ amount ∉ function.strayAmounts party) ∧
      frame.amountOffset ≤ 36 ∧
      (amount = 0 → (frame.amountOffset = 36 ↔ party.bytes.getLast? ≠ some 0)) ∧
      (0 < amount → amount < Bytes.capacity 12 → (∃ byte ∈ party.bytes.take 8, byte ≠ 0) →
        frame.amountOffset = 36) := by
  refine ⟨amountOffset_eq_iff_not_mem h hbody, amountOffset_le h hbody, ?_, ?_⟩
  · rintro rfl
    exact amountOffset_zero h hbody
  · exact amountOffset_of_lt h hbody

theorem amountOffset_eq_iff_payment : ∃ frame,
    TokenFunction.transfer.frame (.ofNat 5) (.ofNat 0xc0ffee254729296a45a3885639ac7e10f9d54979)
      1000 = .ok frame ∧ frame.body.length = 68 ∧ frame.amountOffset = 36 := by
  obtain ⟨frame, hframe⟩ := exists_frame .transfer (.ofNat 5)
    (.ofNat 0xc0ffee254729296a45a3885639ac7e10f9d54979) (show 1000 < Bytes.capacity 32 by decide)
  have hlength : frame.body.length = 68 := by
    rw [length_body hframe]
    decide
  obtain ⟨_, _, _, hcommon⟩ := amountOffset_eq_iff hframe hlength
  exact ⟨frame, hframe, hlength, hcommon (by decide) (by decide) ⟨0xc0, by decide, by decide⟩⟩

/-- A transfer of nothing to an address that ends in a zero is patched one byte too early, and
an allowance of as much as the number of the spender at the address itself. -/
theorem amountOffset_stray :
    (∃ frame, TokenFunction.transfer.frame (.ofNat 5) (.ofNat 256) 0 = .ok frame ∧
      frame.body.length = 68 ∧ frame.amountOffset = 35) ∧
    ∃ frame, TokenFunction.approve.frame (.ofNat 5) (.ofNat 6) 6 = .ok frame ∧
      frame.body.length = 68 ∧ frame.amountOffset = 4 := by
  have htransfer : (TokenFunction.transfer.frame (.ofNat 5) (.ofNat 256) 0).map
      (fun frame => (frame.body.length, frame.amountOffset)) = .ok (68, 35) := by decide
  have hallowance : (TokenFunction.approve.frame (.ofNat 5) (.ofNat 6) 6).map
      (fun frame => (frame.body.length, frame.amountOffset)) = .ok (68, 4) := by decide
  constructor
  · obtain ⟨frame, hframe, hplaces⟩ := map_eq_ok_iff.1 htransfer
    exact ⟨frame, hframe, Prod.mk.inj hplaces⟩
  · obtain ⟨frame, hframe, hplaces⟩ := map_eq_ok_iff.1 hallowance
    exact ⟨frame, hframe, Prod.mk.inj hplaces⟩

end TokenFunction

end SwapCompiler
