import SwapCompiler.Proofs.Built.Offset
import SwapCompiler.Proofs.Overlap

/-!
# Which literals an exchange call is patched by

An adapter writes the amount that it sells into its calldata, and the frame of the call
says where the running amount replaces it.  The place is the first one at which the bytes
of the amount's word occur in the body, and the body may be longer than the calldata, by
the word of the received token.

* `Call.PatchesLiteral` says that the amount is written over a literal of the
  adapter and over nothing else.  `Call.patchesLiteral_iff`: for a given amount and token
  this holds whatever the calldata is exactly if the two words cannot overlap.
* `Frame.ZeroMeansNone` says that an offset of zero stands for no place.
  `Call.zeroMeansNone_iff`: this fails exactly for bodies that begin with a word that
  the flag asks for, which a selector prevents.
-/

namespace SwapCompiler

namespace Call

variable {call : Call} {frame : Frame}

/-- The word that the adapter must have written for the amount it sells. -/
def amountLiteral (call : Call) : Bytes :=
  Bytes.word call.sourceAmount

/-- Where the amount is patched in, the adapter has written it, and the token that the flag
reads stands elsewhere; without the literal the call has no frame, for want of a
pattern. -/
structure PatchesLiteral (call : Call) : Prop where
  literal : ∀ frame, call.frame = .ok frame → call.amountLiteral <:+: call.calldata
  inside : ∀ frame, call.frame = .ok frame →
    frame.amountOffset + 32 ≤ call.calldata.length
  apart : ∀ frame, call.frame = .ok frame → call.flag.checksToken = true →
    frame.amountOffset + 32 ≤ frame.tokenOffset ∨ frame.tokenOffset + 32 ≤ frame.amountOffset
  absent : call.sourceAmount < Bytes.capacity 32 → ¬ call.amountLiteral <:+: call.calldata →
    ∃ fault, call.frame = .error fault ∧ fault.kind = .pattern

/-- The word of the amount cannot run over into the word of the token, where that is
appended, and where the token is read the two cannot share bytes at all. -/
def Clear (call : Call) : Prop :=
  (call.needsToken = true → call.namesReceived = false →
      ¬ Bytes.Overlap call.amountLiteral call.received.word) ∧
    (call.flag.checksToken = true → ¬ Bytes.Overlap call.amountLiteral call.received.word ∧
      ¬ Bytes.Overlap call.received.word call.amountLiteral)

theorem length_amountLiteral (call : Call) : call.amountLiteral.length = 32 :=
  Bytes.length_word call.sourceAmount

theorem amountLiteral_ne_nil (call : Call) : call.amountLiteral ≠ [] :=
  Bytes.word_ne_nil call.sourceAmount

theorem calldata_prefix_body (call : Call) : call.calldata <+: call.body := by
  unfold body
  split
  · exact List.prefix_append _ _
  · exact List.prefix_rfl

/-! ## The amount -/

section

variable (h : call.frame = .ok frame) (hpatches : call.flag.patches = true)

include h hpatches

/-- An amount that is found outside of the calldata runs over into the word behind it. -/
theorem amountLiteral_infix_of_clear (hclear : call.Clear) :
    call.amountLiteral <:+: call.calldata := by
  obtain ⟨_, hoccurs⟩ := occursAt_of_patches h hpatches
  rw [body_of_frame h, body] at hoccurs
  by_contra habsent
  split at hoccurs
  · next happends =>
      rw [Bool.and_eq_true, Bool.not_eq_true'] at happends
      apply hclear.1 happends.1 happends.2
      apply hoccurs.overlap_of_not_infix call.amountLiteral_ne_nil _ habsent
      rw [Bytes.length_word, call.received.length_word]
  · exact habsent (Bytes.exists_occursAt_iff.1 ⟨_, hoccurs⟩)

/-- An amount that stands in the calldata is found there, and not behind it. -/
theorem amountOffset_inside (hliteral : call.amountLiteral <:+: call.calldata) :
    frame.amountOffset + 32 ≤ call.calldata.length := by
  obtain ⟨index, hindex⟩ := (Bytes.exists_firstIndex?_iff call.amountLiteral_ne_nil).2 hliteral
  obtain ⟨tail, htail⟩ := call.calldata_prefix_body
  obtain ⟨_, hoffset⟩ := firstIndex?_of_patches h hpatches
  have hfound : some frame.amountOffset = some index := by
    rw [← hoffset, body_of_frame h, ← htail]
    exact Bytes.firstIndex?_append hindex tail
  have hinside := (Bytes.occursAt_of_firstIndex? hindex).add_length_le call.amountLiteral_ne_nil
  rw [call.length_amountLiteral, ← Option.some.inj hfound] at hinside
  exact hinside

end

theorem patchesLiteral_of_clear (hpatches : call.flag.patches = true)
    (hclear : call.sourceAmount < Bytes.capacity 32 → call.Clear) : call.PatchesLiteral := by
  have hliteral : ∀ frame, call.frame = .ok frame → call.amountLiteral <:+: call.calldata := by
    intro frame h
    have hfits := (occursAt_of_patches h hpatches).1
    exact amountLiteral_infix_of_clear h hpatches (hclear hfits)
  constructor
  · exact hliteral
  · intro frame h
    exact amountOffset_inside h hpatches (hliteral frame h)
  · intro frame h hchecks
    obtain ⟨hfits, hamount⟩ := occursAt_of_patches h hpatches
    have htoken := occursAt_of_checksToken h hchecks
    obtain ⟨hforward, hbackward⟩ := (hclear hfits).2 hchecks
    have hlengths : call.amountLiteral.length = call.received.word.length := by
      rw [call.length_amountLiteral, call.received.length_word]
    have hapart := hamount.apart htoken hlengths hforward hbackward
    rwa [Bytes.length_word, call.received.length_word] at hapart
  · intro hfits habsent
    cases hframe : call.frame with
    | ok frame => exact absurd (hliteral frame hframe) habsent
    | error fault =>
        rcases frame_failsOnly call fault hframe with hkind | ⟨_, hwide, _⟩
        · exact ⟨fault, rfl, hkind⟩
        · omega

/-- If both words begin among the first bytes of the calldata, the places that are found
share bytes. -/
theorem not_patchesLiteral_of_occursAt (call : Call) (hpatches : call.flag.patches = true)
    (hchecks : call.flag.checksToken = true) (hfits : call.sourceAmount < Bytes.capacity 32)
    {i j : Nat} (hamount : Bytes.OccursAt call.amountLiteral i call.calldata)
    (htoken : Bytes.OccursAt call.received.word j call.calldata) (hi : i < 32) (hj : j < 32) :
    ¬ call.PatchesLiteral := by
  intro hliteral
  obtain ⟨tail, htail⟩ := call.calldata_prefix_body
  have hamountBody := hamount.append tail
  have htokenBody := htoken.append tail
  rw [htail] at hamountBody htokenBody
  obtain ⟨frame, hframe⟩ : ∃ frame, call.frame = .ok frame := by
    apply exists_frame fun _ => hfits
    rintro (⟨_, _, habsent⟩ | ⟨_, _, habsent⟩)
    · exact habsent (Bytes.exists_occursAt_iff.1 ⟨i, hamountBody⟩)
    · exact habsent (Bytes.exists_occursAt_iff.1 ⟨j, htoken⟩)
  rw [← body_of_frame hframe] at hamountBody htokenBody
  have hamountFound := Bytes.le_of_occursAt (firstIndex?_of_patches hframe hpatches).2 hamountBody
  have htokenFound := Bytes.le_of_occursAt (firstIndex?_of_checksToken hframe hchecks) htokenBody
  have hapart := hliteral.apart frame hframe hchecks
  omega

/-- If calldata that is shorter than a word is completed to the amount by the token's word, the
amount is patched without having been written. -/
theorem not_patchesLiteral_of_append (call : Call) (hfits : call.sourceAmount < Bytes.capacity 32)
    (hneeds : call.needsToken = true) (hnames : call.namesReceived = false)
    (hamount : Bytes.OccursAt call.amountLiteral 0 (call.calldata ++ call.received.word))
    (hshort : call.calldata.length < 32) : ¬ call.PatchesLiteral := by
  intro hliteral
  have hbody : call.body = call.calldata ++ call.received.word := by
    rw [body, hneeds, hnames]
    rfl
  obtain ⟨frame, hframe⟩ : ∃ frame, call.frame = .ok frame := by
    apply exists_frame fun _ => hfits
    rintro (⟨_, _, habsent⟩ | ⟨hpromised, _, _⟩)
    · rw [hbody] at habsent
      exact habsent (Bytes.exists_occursAt_iff.1 ⟨0, hamount⟩)
    · rw [hnames] at hpromised
      exact Bool.false_ne_true hpromised
  have hlength := (hliteral.literal frame hframe).length_le
  rw [call.length_amountLiteral] at hlength
  omega

/-- Whether the running amount is only ever written over the adapter's own literal is
decided by the amount and the token: for every calldata if their words cannot overlap, and
otherwise not for some. -/
theorem patchesLiteral_iff {call : Call} (hpatches : call.flag.patches = true) :
    (∀ calldata, ({ call with calldata } : Call).PatchesLiteral) ↔
      (call.sourceAmount < Bytes.capacity 32 → call.Clear) := by
  constructor
  · intro hliteral hfits
    constructor
    · rintro hneeds hnames hoverlap
      obtain ⟨shift, hshift, hamount, _⟩ := hoverlap.exists_occursAt
      apply not_patchesLiteral_of_append { call with calldata := call.amountLiteral.take shift }
        hfits hneeds hnames hamount _ (hliteral _)
      rw [call.length_amountLiteral] at hshift
      exact Nat.lt_of_le_of_lt (List.length_take_le _ _) hshift
    · intro hchecks
      constructor
      · intro hoverlap
        obtain ⟨shift, hshift, hamount, htoken⟩ := hoverlap.exists_occursAt
        rw [call.length_amountLiteral] at hshift
        exact not_patchesLiteral_of_occursAt
          { call with calldata := call.amountLiteral.take shift ++ call.received.word }
          hpatches hchecks hfits hamount htoken (by omega) hshift (hliteral _)
      · intro hoverlap
        obtain ⟨shift, hshift, htoken, hamount⟩ := hoverlap.exists_occursAt
        rw [call.received.length_word] at hshift
        exact not_patchesLiteral_of_occursAt
          { call with calldata := call.received.word.take shift ++ call.amountLiteral }
          hpatches hchecks hfits hamount htoken hshift (by omega) (hliteral _)
  · intro hclear calldata
    exact patchesLiteral_of_clear hpatches hclear

/-- A call that sells five to an adapter whose calldata is given, for the token with the
number nine. -/
def small (calldata : Bytes) (flag : Flag) : Call :=
  { target := .ofNat 11
    calldata := calldata
    sourceAmount := 5
    received := .ofNat 9
    flag := flag
    opcode := .plain
    namesReceived := false
    exposeReceived := false
    returnPosition := 0 }

theorem patchesLiteral_iff_small :
    (small [] ⟨.data, .token⟩).flag.patches = true ∧ (small [] ⟨.data, .token⟩).Clear ∧
      ∀ calldata, (small calldata ⟨.data, .token⟩).PatchesLiteral := by
  have hclear : (small [] ⟨.data, .token⟩).Clear := by
    refine ⟨fun _ _ => by decide, fun _ => ⟨by decide, by decide⟩⟩
  exact ⟨rfl, hclear, (patchesLiteral_iff rfl).2 fun _ => hclear⟩

/-- A call that sells as much as the number of the token that it buys, and whose adapter has
written nothing but a selector. -/
def unwritten : Call :=
  { small [0xaa, 0xbb, 0xcc, 0xdd] ⟨.data, .token⟩ with sourceAmount := 9 }

/-- The running amount is written over the word of the token that is read. -/
theorem not_patchesLiteral_unwritten : unwritten.flag.patches = true ∧
    ¬ unwritten.amountLiteral <:+: unwritten.calldata ∧
    (∃ frame, unwritten.frame = .ok frame ∧ frame.amountOffset = unwritten.calldata.length ∧
      frame.tokenOffset = frame.amountOffset) ∧
    ¬ unwritten.PatchesLiteral := by
  have habsent : ¬ unwritten.amountLiteral <:+: unwritten.calldata := by decide
  have hoffsets : unwritten.frame.map (fun frame => (frame.amountOffset, frame.tokenOffset)) =
      .ok (4, 4) := by decide
  obtain ⟨frame, hframe, hplaces⟩ := map_eq_ok_iff.1 hoffsets
  obtain ⟨hamount, htoken⟩ := Prod.mk.inj hplaces
  refine ⟨rfl, habsent, ⟨frame, hframe, hamount, ?_⟩, fun hliteral => ?_⟩
  · rw [hamount, htoken]
  · exact habsent (hliteral.literal frame hframe)

end Call

/-! ## Offsets of zero -/

/-- Each offset of the frame is zero exactly if the flag has no use for it. -/
def Frame.ZeroMeansNone (frame : Frame) : Prop :=
  (frame.amountOffset ≠ 0 ↔ frame.flag.patches = true) ∧
    (frame.tokenOffset ≠ 0 ↔ frame.flag.checksToken = true)

namespace Call

section

variable {call : Call} {frame : Frame} (h : call.frame = .ok frame)

include h

theorem amountOffset_ne_zero_iff :
    frame.amountOffset ≠ 0 ↔
      call.flag.patches = true ∧ ¬ call.amountLiteral <+: call.body := by
  cases hpatches : call.flag.patches with
  | false => simp [amountOffset_eq_zero h hpatches]
  | true =>
      obtain ⟨_, hoffset⟩ := firstIndex?_of_patches h hpatches
      rw [Bytes.ne_zero_iff_of_firstIndex? hoffset, body_of_frame h]
      simp [amountLiteral]

theorem tokenOffset_ne_zero_iff :
    frame.tokenOffset ≠ 0 ↔
      call.flag.checksToken = true ∧ ¬ call.received.word <+: call.body := by
  cases hchecks : call.flag.checksToken with
  | false => simp [tokenOffset_eq_zero h hchecks]
  | true =>
      rw [Bytes.ne_zero_iff_of_firstIndex? (firstIndex?_of_checksToken h hchecks),
        body_of_frame h]
      simp

end

/-- A body that begins with the nonzero byte of a selector does not begin with a word that
begins with a zero. -/
theorem not_zero_cons_prefix_body {call : Call} {rest : Bytes}
    (hselector : ∃ byte ∈ call.calldata.head?, byte ≠ 0) : ¬ 0 :: rest <+: call.body := by
  obtain ⟨byte, hbyte, hnonzero⟩ := hselector
  obtain ⟨arguments, harguments⟩ := List.head?_eq_some_iff.1 hbyte
  obtain ⟨tail, htail⟩ := call.calldata_prefix_body
  rw [← htail, harguments]
  intro hprefix
  exact hnonzero (List.cons_prefix_cons.1 hprefix).1.symm

/-- An offset of zero is ambiguous exactly for bodies that begin with the word that the flag
asks for.  Where the calldata begins with a selector whose first byte is not zero, no
token's word does so, nor that of any amount below 2^248. -/
theorem zeroMeansNone_iff {call : Call} {frame : Frame} (h : call.frame = .ok frame) :
    (frame.ZeroMeansNone ↔
      (call.flag.patches = true → ¬ call.amountLiteral <+: call.body) ∧
        (call.flag.checksToken = true → ¬ call.received.word <+: call.body)) ∧
    ((∃ byte ∈ call.calldata.head?, byte ≠ 0) → call.sourceAmount < Bytes.capacity 31 →
      frame.ZeroMeansNone) := by
  have hexact : frame.ZeroMeansNone ↔
      (call.flag.patches = true → ¬ call.amountLiteral <+: call.body) ∧
        (call.flag.checksToken = true → ¬ call.received.word <+: call.body) := by
    rw [Frame.ZeroMeansNone, amountOffset_ne_zero_iff h, tokenOffset_ne_zero_iff h,
      flag_of_frame h]
    simp only [and_iff_left_iff_imp]
  refine ⟨hexact, fun hselector hsmall => hexact.2 ⟨fun _ => ?_, fun _ => ?_⟩⟩
  · have hword : call.amountLiteral = 0 :: Bytes.bigEndian 31 call.sourceAmount := by
      have hsplit := Bytes.bigEndian_add_of_lt 1 hsmall
      simpa [amountLiteral, Bytes.word] using hsplit
    rw [hword]
    exact not_zero_cons_prefix_body hselector
  · exact not_zero_cons_prefix_body hselector

theorem zeroMeansNone_iff_small : ∃ frame,
    (small ([0xaa, 0xbb, 0xcc, 0xdd] ++ Bytes.word 5) ⟨.data, .token⟩).frame = .ok frame ∧
      frame.ZeroMeansNone := by
  obtain ⟨frame, hframe⟩ : ∃ frame,
      (small ([0xaa, 0xbb, 0xcc, 0xdd] ++ Bytes.word 5) ⟨.data, .token⟩).frame = .ok frame :=
    exists_eq_ok_of_isSome (by decide)
  refine ⟨frame, hframe, (zeroMeansNone_iff hframe).2 ⟨0xaa, rfl, by decide⟩ ?_⟩
  decide

/-- Without a selector both words may stand in front: the amount that an adapter wrote, and the
token that is appended to nothing. -/
theorem not_zeroMeansNone_small :
    (∃ frame, (small (Bytes.word 5) ⟨.data, .nothing⟩).frame = .ok frame ∧
      frame.flag.patches = true ∧ frame.amountOffset = 0) ∧
    ∃ frame, (small [] ⟨.nothing, .token⟩).frame = .ok frame ∧
      frame.flag.checksToken = true ∧ frame.tokenOffset = 0 := by
  have hamount : (small (Bytes.word 5) ⟨.data, .nothing⟩).frame.map (·.amountOffset) = .ok 0 := by
    decide
  have htoken : (small [] ⟨.nothing, .token⟩).frame.map (·.tokenOffset) = .ok 0 := by
    decide
  constructor
  · obtain ⟨frame, hframe, hoffset⟩ := map_eq_ok_iff.1 hamount
    exact ⟨frame, hframe, by rw [flag_of_frame hframe]; rfl, hoffset⟩
  · obtain ⟨frame, hframe, hoffset⟩ := map_eq_ok_iff.1 htoken
    exact ⟨frame, hframe, by rw [flag_of_frame hframe]; rfl, hoffset⟩

end Call

end SwapCompiler
