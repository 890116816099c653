import SwapCompiler.Proofs.Built.Header
import SwapCompiler.Proofs.Causes
import SwapCompiler.Proofs.Search

/-!
# Where built frames are patched

The two offsets of a built frame are occurrences: of the word of the amount, and of
the word of the token that the call receives.  An offset that the flag does not ask
for is zero.

* `Call.occursAt_of_patches` and `Call.occursAt_of_checksToken` say so of exchange
  calls, `Branch.occursAt_of_checksToken` of branches.
* `Call.frame_findsPatterns_iff` says when a call has no frame for want of a pattern;
  `Call.LacksPattern` names the two patterns that only the adapter can supply.
* The calls of token contracts that the compiler writes itself always hold their
  amount: `Frame.exists_ofAmountCall`.
-/

namespace SwapCompiler

theorem amountWord_eq_ok_iff {amount : Nat} {word : Bytes} :
    amountWord amount = .ok word ↔ amount < Bytes.capacity 32 ∧ word = Bytes.word amount := by
  show _ ↔ amount < Bytes.capacity 32 ∧ word = Bytes.bigEndian 32 amount
  rw [← Bytes.fixed?_eq_some_iff]
  cases h : Bytes.fixed? 32 amount <;> simp [amountWord, h]

theorem argumentWord_eq_ok_iff {amount : Nat} {word : Bytes} :
    argumentWord amount = .ok word ↔ amount < Bytes.capacity 32 ∧ word = Bytes.word amount := by
  show _ ↔ amount < Bytes.capacity 32 ∧ word = Bytes.bigEndian 32 amount
  rw [← Bytes.fixed?_eq_some_iff]
  cases h : Bytes.fixed? 32 amount <;> simp [argumentWord, h]

/-- The search for a mandatory pattern fails exactly if the pattern is absent. -/
theorem locate_findsPatterns_iff (what : String) {pattern text : Bytes} (hpattern : pattern ≠ []) :
    FindsPatterns (locate what pattern text) ↔ pattern <:+: text := by
  rw [← exists_locate_iff what hpattern]
  constructor
  · intro h
    cases hfound : Bytes.firstIndex? pattern text with
    | some index => exact ⟨index, locate_eq_ok_iff.2 hfound⟩
    | none =>
        have hfails : locate what pattern text =
            .error (.patternAbsent what pattern text.length none) := by
          rw [locate, hfound]
        exact absurd rfl (h _ hfails)
  · rintro ⟨index, hindex⟩
    exact .of_eq_ok hindex

/-! ## Exchange calls -/

namespace Call

variable {call : Call} {frame : Frame}

/-- The word of the received token stands in the body of a call that needs it, unless
the adapter has promised it and not written it. -/
theorem received_infix_body_iff (hneeds : call.needsToken = true) :
    call.received.word <:+: call.body ↔
      (call.namesReceived = true → call.received.word <:+: call.calldata) := by
  rw [body, hneeds, Bool.true_and]
  cases call.namesReceived with
  | true => simp
  | false => simpa using (List.suffix_append call.calldata call.received.word).isInfix

theorem tokenOffset_findsPatterns_iff :
    FindsPatterns call.tokenOffset ↔
      (call.needsToken = true → call.received.word <:+: call.body) := by
  unfold tokenOffset
  cases call.needsToken with
  | false => simpa using FailsOnly.ok 0
  | true =>
      rw [if_pos rfl]
      refine FailsOnly.bind_iff.trans ?_
      have hsearch : FindsPatterns (locate "destination token" call.received.word call.body) ↔
          call.received.word <:+: call.body :=
        locate_findsPatterns_iff _ call.received.word_ne_nil
      exact ⟨fun h _ => hsearch.1 h.1, fun h => ⟨hsearch.2 (h rfl), fun index _ => .ok _⟩⟩

theorem exists_tokenOffset (h : call.needsToken = true → call.received.word <:+: call.body) :
    ∃ offset, call.tokenOffset = .ok offset := by
  unfold tokenOffset
  cases hneeds : call.needsToken with
  | false => exact ⟨0, rfl⟩
  | true =>
      obtain ⟨index, hindex⟩ :=
        (exists_locate_iff "destination token" call.received.word_ne_nil).2 (h hneeds)
      exact ⟨_, bind_eq_ok_iff.2 ⟨index, hindex, rfl⟩⟩

theorem amountOffset_findsPatterns_iff :
    FindsPatterns call.amountOffset ↔
      (call.flag.patches = true → call.sourceAmount < Bytes.capacity 32 →
        Bytes.word call.sourceAmount <:+: call.body) := by
  unfold amountOffset
  cases call.flag.patches with
  | false => simpa using FailsOnly.ok 0
  | true =>
      rw [if_pos rfl]
      refine FailsOnly.bind_iff.trans ?_
      constructor
      · rintro ⟨_, hsearch⟩ _ hfits
        have hword := hsearch _ (amountWord_eq_ok_iff.2 ⟨hfits, rfl⟩)
        exact (locate_findsPatterns_iff _ (Bytes.word_ne_nil _)).1 hword
      · intro hfound
        refine ⟨amountWord_findsPatterns _, fun word hword => ?_⟩
        have hbytes := amountWord_eq_ok_iff.1 hword
        rw [hbytes.2]
        exact (locate_findsPatterns_iff _ (Bytes.word_ne_nil _)).2 (hfound rfl hbytes.1)

/-- A pattern that only the adapter can supply is absent: the amount that the flag
patches is not in the body, or the adapter claims to name the received token, whose
word is needed, and does not. -/
def LacksPattern (call : Call) : Prop :=
  (call.flag.patches = true ∧ call.sourceAmount < Bytes.capacity 32 ∧
      ¬ Bytes.word call.sourceAmount <:+: call.body) ∨
    (call.namesReceived = true ∧ call.needsToken = true ∧
      ¬ call.received.word <:+: call.calldata)

/-- Nothing else makes the frame of a call fail for want of a pattern. -/
theorem frame_findsPatterns_iff : FindsPatterns call.frame ↔ ¬ call.LacksPattern := by
  have hframe : FindsPatterns call.frame ↔
      FindsPatterns call.tokenOffset ∧ (∀ offset, call.tokenOffset = .ok offset →
        FindsPatterns call.amountOffset) := by
    refine FailsOnly.bind_iff.trans (and_congr_right fun _ => forall_congr' fun offset =>
      imp_congr_right fun _ => FailsOnly.bind_iff.trans ?_)
    exact ⟨fun h => h.1, fun h => ⟨h, fun _ _ => .ok _⟩⟩
  rw [hframe, tokenOffset_findsPatterns_iff, amountOffset_findsPatterns_iff, LacksPattern, not_or]
  constructor
  · rintro ⟨htoken, hamount⟩
    obtain ⟨offset, hoffset⟩ := exists_tokenOffset htoken
    refine ⟨fun ⟨hpatches, hfits, habsent⟩ => ?_, fun ⟨hnames, hneeds, habsent⟩ => ?_⟩
    · exact habsent (hamount offset hoffset hpatches hfits)
    · exact habsent ((received_infix_body_iff hneeds).1 (htoken hneeds) hnames)
  · rintro ⟨hamount, htoken⟩
    refine ⟨fun hneeds => ?_, fun offset _ hpatches hfits => ?_⟩
    · refine (received_infix_body_iff hneeds).2 fun hnames => ?_
      exact not_not.1 fun habsent => htoken ⟨hnames, hneeds, habsent⟩
    · exact not_not.1 fun habsent => hamount ⟨hpatches, hfits, habsent⟩

/-- Only a missing pattern or an amount that is too large stops the frame of a call. -/
theorem frame_failsOnly (call : Call) :
    FailsOnly (fun fault => fault.kind = .pattern ∨
      (call.flag.patches = true ∧ Bytes.capacity 32 ≤ call.sourceAmount ∧
        fault = .amountTooWide call.sourceAmount)) call.frame := by
  refine FailsOnly.bind ?_ fun _ _ => FailsOnly.bind ?_ fun _ _ => .ok _
  · unfold tokenOffset
    split
    · refine FailsOnly.bind ?_ fun _ _ => .ok _
      exact (locate_failsOnly _ _ _).mono fun _ hkind => .inl hkind
    · exact .ok _
  · unfold amountOffset
    split
    · next hpatches =>
        refine FailsOnly.bind ?_ fun _ _ => ?_
        · exact (amountWord_failsOnly _).mono fun _ ⟨hfault, hwide⟩ =>
            .inr ⟨hpatches, hwide, hfault⟩
        · exact (locate_failsOnly _ _ _).mono fun _ hkind => .inl hkind
    · exact .ok _

/-- A call whose amount fits in a word has a frame unless it lacks a pattern. -/
theorem exists_frame (hfits : call.flag.patches = true → call.sourceAmount < Bytes.capacity 32)
    (hfound : ¬ call.LacksPattern) : ∃ frame, call.frame = .ok frame := by
  cases hframe : call.frame with
  | ok frame => exact ⟨frame, rfl⟩
  | error fault =>
      rcases frame_failsOnly call fault hframe with hkind | ⟨hpatches, hwide, _⟩
      · exact absurd hkind (frame_findsPatterns_iff.2 hfound fault hframe)
      · have hnarrow := hfits hpatches
        omega

/-- A call that needs the word of the received token has it in its body. -/
theorem received_infix_of_frame (h : call.frame = .ok frame)
    (hneeds : call.needsToken = true) : call.received.word <:+: frame.body := by
  obtain ⟨htoken, _, hframe⟩ := frame_eq_ok_iff.1 h
  rw [hframe]
  exact tokenOffset_findsPatterns_iff.1 (.of_eq_ok htoken) hneeds

/-- A call whose flag reads a token's balance reads it where the token's word occurs first. -/
theorem firstIndex?_of_checksToken (h : call.frame = .ok frame)
    (hflag : call.flag.checksToken = true) :
    Bytes.firstIndex? call.received.word frame.body = some frame.tokenOffset := by
  obtain ⟨htoken, _, hframe⟩ := frame_eq_ok_iff.1 h
  have hneeds : call.needsToken = true := by
    rw [needsToken, hflag]
    rfl
  rw [tokenOffset, hneeds, if_pos rfl] at htoken
  obtain ⟨index, hindex, hoffset⟩ := bind_eq_ok_iff.1 htoken
  rw [hflag, if_pos rfl] at hoffset
  obtain rfl := Except.ok.inj hoffset
  rw [hframe]
  exact locate_eq_ok_iff.1 hindex

theorem occursAt_of_checksToken (h : call.frame = .ok frame)
    (hflag : call.flag.checksToken = true) :
    Bytes.OccursAt call.received.word frame.tokenOffset frame.body :=
  Bytes.occursAt_of_firstIndex? (firstIndex?_of_checksToken h hflag)

theorem tokenOffset_eq_zero (h : call.frame = .ok frame)
    (hflag : call.flag.checksToken = false) : frame.tokenOffset = 0 := by
  obtain ⟨htoken, _, _⟩ := frame_eq_ok_iff.1 h
  unfold tokenOffset at htoken
  split at htoken
  -- the word may be needed by an enclosing branch all the same
  · obtain ⟨index, _, hoffset⟩ := bind_eq_ok_iff.1 htoken
    rw [hflag, if_neg Bool.false_ne_true] at hoffset
    exact (Except.ok.inj hoffset).symm
  · exact (Except.ok.inj htoken).symm

/-- A call whose flag patches the amount patches it where the amount's word occurs
first. -/
theorem firstIndex?_of_patches (h : call.frame = .ok frame) (hflag : call.flag.patches = true) :
    call.sourceAmount < Bytes.capacity 32 ∧
      Bytes.firstIndex? (Bytes.word call.sourceAmount) frame.body = some frame.amountOffset := by
  obtain ⟨_, hamount, hframe⟩ := frame_eq_ok_iff.1 h
  rw [amountOffset, hflag, if_pos rfl] at hamount
  obtain ⟨word, hword, hindex⟩ := bind_eq_ok_iff.1 hamount
  obtain ⟨hfits, hbytes⟩ := amountWord_eq_ok_iff.1 hword
  rw [hbytes] at hindex
  refine ⟨hfits, ?_⟩
  rw [hframe]
  exact locate_eq_ok_iff.1 hindex

theorem occursAt_of_patches (h : call.frame = .ok frame) (hflag : call.flag.patches = true) :
    call.sourceAmount < Bytes.capacity 32 ∧
      Bytes.OccursAt (Bytes.word call.sourceAmount) frame.amountOffset frame.body :=
  (firstIndex?_of_patches h hflag).imp_right Bytes.occursAt_of_firstIndex?

theorem amountOffset_eq_zero (h : call.frame = .ok frame)
    (hflag : call.flag.patches = false) : frame.amountOffset = 0 := by
  obtain ⟨_, hamount, _⟩ := frame_eq_ok_iff.1 h
  rw [amountOffset, hflag, if_neg Bool.false_ne_true] at hamount
  exact (Except.ok.inj hamount).symm

end Call

/-! ## Calls of token contracts -/

/-- The last argument of a call stays in its calldata. -/
theorem word_suffix_callData (selector : Bytes) (party : Address) (amount : Nat) :
    Bytes.word amount <:+ callData selector (party.word ++ Bytes.word amount) := by
  unfold callData
  split
  · rw [List.drop_left' party.length_word]
    exact List.suffix_append _ _
  · rw [← List.append_assoc]
    exact List.suffix_append _ _

namespace Frame

variable {selector : Bytes} {token party : Address} {amount : Nat} {frame : Frame}

/-- A call with an address and an amount patches the amount where its word occurs first in
the calldata. -/
theorem ofAmountCall_eq_ok_iff :
    ofAmountCall selector token party amount = .ok frame ↔
      amount < Bytes.capacity 32 ∧ ∃ index,
        Bytes.firstIndex? (Bytes.word amount)
          (callData selector (party.word ++ Bytes.word amount)) = some index ∧
        frame = ofCalldata token ⟨.data, .nothing⟩ index
          (callData selector (party.word ++ Bytes.word amount)) := by
  constructor
  · intro h
    obtain ⟨word, hword, hcall⟩ := bind_eq_ok_iff.1 h
    obtain ⟨hfits, hbytes⟩ := argumentWord_eq_ok_iff.1 hword
    rw [hbytes] at hcall
    obtain ⟨_, hindex⟩ := Call.firstIndex?_of_patches hcall rfl
    have htoken := Call.tokenOffset_eq_zero hcall rfl
    obtain ⟨_, _, hframe⟩ := Call.frame_eq_ok_iff.1 hcall
    rw [htoken] at hframe
    have hbody : frame.body = callData selector (party.word ++ Bytes.word amount) := by
      rw [hframe]
      rfl
    rw [hbody] at hindex
    exact ⟨hfits, frame.amountOffset, hindex, hframe⟩
  · rintro ⟨hfits, index, hindex, rfl⟩
    have hword : argumentWord amount = .ok (Bytes.word amount) :=
      argumentWord_eq_ok_iff.2 ⟨hfits, rfl⟩
    refine bind_eq_ok_iff.2 ⟨_, hword, Call.frame_eq_ok_iff.2 ⟨rfl, ?_, rfl⟩⟩
    exact bind_eq_ok_iff.2 ⟨_, amountWord_eq_ok_iff.2 ⟨hfits, rfl⟩, locate_eq_ok_iff.2 hindex⟩

/-- A call with an address and an amount is made on the token; it reads no balance, and
the amount is patched in where its word stands. -/
theorem spec_ofAmountCall (h : ofAmountCall selector token party amount = .ok frame) :
    frame.target = token ∧ frame.flag = ⟨.data, .nothing⟩ ∧ frame.tokenOffset = 0 ∧
      amount < Bytes.capacity 32 ∧
      Bytes.OccursAt (Bytes.word amount) frame.amountOffset frame.body := by
  obtain ⟨hfits, index, hindex, rfl⟩ := ofAmountCall_eq_ok_iff.1 h
  exact ⟨rfl, rfl, rfl, hfits, Bytes.occursAt_of_firstIndex? hindex⟩

theorem ofAmountCall_findsPatterns (selector : Bytes) (token party : Address) (amount : Nat) :
    FindsPatterns (ofAmountCall selector token party amount) := by
  refine (argumentWord_findsPatterns amount).bind fun word hword => ?_
  rw [(argumentWord_eq_ok_iff.1 hword).2]
  refine Call.frame_findsPatterns_iff.2 ?_
  rintro (⟨_, _, habsent⟩ | ⟨hnames, _⟩)
  · exact habsent (word_suffix_callData selector party amount).isInfix
  · exact nomatch hnames

/-- Such a call exists for every amount that fits in a word. -/
theorem exists_ofAmountCall (hfits : amount < Bytes.capacity 32) :
    ∃ frame, ofAmountCall selector token party amount = .ok frame := by
  obtain ⟨index, hindex⟩ := (Bytes.exists_firstIndex?_iff (Bytes.word_ne_nil amount)).2
    (word_suffix_callData selector party amount).isInfix
  exact ⟨_, ofAmountCall_eq_ok_iff.2 ⟨hfits, index, hindex, rfl⟩⟩

end Frame

/-! ## Branches -/

namespace Branch

variable {executor token : Address} {flag : Flag} {children : Bytes} {branch : Branch}

/-- A branch finds its token in its body, if that is where the token stands. -/
theorem exists_of (h : flag.checksToken = true → token.word <:+: body children) :
    ∃ branch, Branch.of executor flag (some token) children = .ok branch := by
  cases hflag : flag.checksToken with
  | false => exact ⟨⟨executor, flag, 0⟩, of_eq_ok_iff.2 ⟨rfl, rfl, by simp [hflag]⟩⟩
  | true =>
      obtain ⟨index, hindex⟩ := (Bytes.exists_firstIndex?_iff token.word_ne_nil).2 (h hflag)
      refine ⟨⟨executor, flag, index⟩, of_eq_ok_iff.2 ⟨rfl, rfl, ?_⟩⟩
      rw [hflag, if_pos rfl]
      exact hindex

theorem occursAt_of_checksToken (h : Branch.of executor flag (some token) children = .ok branch)
    (hflag : flag.checksToken = true) :
    Bytes.OccursAt token.word (branch.frame children).tokenOffset
      (branch.frame children).body := by
  obtain ⟨_, _, hoffset⟩ := Branch.of_eq_ok_iff.1 h
  rw [hflag, if_pos rfl] at hoffset
  exact Bytes.occursAt_of_firstIndex? hoffset

end Branch

end SwapCompiler
