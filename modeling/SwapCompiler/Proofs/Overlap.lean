import SwapCompiler.Proofs.Search

/-!
# Occurrences that share bytes

Places in a text are found by searching for words, so two places may share bytes.

* `Overlap front back` says that the second word can begin inside the first.  Two
  occurrences share bytes only if their words overlap: `OccursAt.apart`.
* `OccursAt.overlap_of_not_infix`: a word that occurs only after some bytes were
  appended to the text overlaps with these bytes.
* A word that is appended to a text may occur before the place where it was written.
  `occursAt_append_self_iff`: at each earlier start there is exactly one such word,
  which repeats the bytes between its two places.
-/

namespace SwapCompiler.Bytes

variable {front back word tail text : Bytes}

/-- From some byte of the first word on, the second reads as the first goes on. -/
def Overlap (front back : Bytes) : Prop :=
  ∃ shift < front.length, front.drop shift <+: back

instance (front back : Bytes) : Decidable (Overlap front back) :=
  inferInstanceAs (Decidable (∃ shift, shift < front.length ∧ front.drop shift <+: back))

/-- A word that begins inside an occurrence of another overlaps with it. -/
theorem OccursAt.overlap {i j : Nat} (hfront : OccursAt front i text)
    (hback : OccursAt back j text) (hlength : front.length ≤ back.length) (hle : i ≤ j)
    (hlt : j < i + front.length) : Overlap front back := by
  refine ⟨j - i, by omega, ?_⟩
  have hrest : front.drop (j - i) <+: text.drop j := by
    have hdrop := List.IsPrefix.drop hfront (j - i)
    rwa [List.drop_drop, Nat.add_sub_cancel' hle] at hdrop
  apply List.prefix_of_prefix_length_le hrest hback
  rw [List.length_drop]
  omega

/-- Occurrences of two words of one length that cannot overlap have no byte in
common. -/
theorem OccursAt.apart {i j : Nat} (hfront : OccursAt front i text)
    (hback : OccursAt back j text) (hlength : front.length = back.length)
    (hforward : ¬ Overlap front back) (hbackward : ¬ Overlap back front) :
    i + front.length ≤ j ∨ j + back.length ≤ i := by
  by_cases hle : i ≤ j
  · left
    by_contra hinside
    apply hforward
    exact hfront.overlap hback (by omega) hle (by omega)
  · right
    by_contra hinside
    apply hbackward
    exact hback.overlap hfront (by omega) (by omega) (by omega)

/-- A word that occurs in a text only with the help of the bytes behind it runs over
into these. -/
theorem OccursAt.overlap_of_not_infix {index : Nat} (h : OccursAt word index (text ++ tail))
    (hword : word ≠ []) (hlength : word.length = tail.length) (habsent : ¬ word <:+: text) :
    Overlap word tail := by
  have hinside := h.add_length_le hword
  rw [List.length_append] at hinside
  have htail : OccursAt tail text.length (text ++ tail) := by
    show tail <+: (text ++ tail).drop text.length
    rw [List.drop_left]
  apply h.overlap htail (by omega) (by omega)
  by_contra hends
  -- the occurrence would end inside the text
  have hprefix : word <+: text.drop index ++ tail := by
    rw [← List.drop_append_of_le_length (by omega)]
    exact h
  have hoccurs : word <+: text.drop index := by
    apply List.prefix_of_prefix_length_le hprefix (List.prefix_append _ _)
    rw [List.length_drop]
    omega
  exact habsent (exists_occursAt_iff.1 ⟨index, hoccurs⟩)

/-- Words that overlap can stand in a text so that they share bytes, each of them before or
at the place where it was put. -/
theorem Overlap.exists_occursAt (h : Overlap front back) :
    ∃ shift < front.length, OccursAt front 0 (front.take shift ++ back) ∧
      OccursAt back shift (front.take shift ++ back) := by
  obtain ⟨shift, hshift, hprefix⟩ := h
  refine ⟨shift, hshift, ?_, ?_⟩
  · show front <+: front.take shift ++ back
    calc front = front.take shift ++ front.drop shift := (List.take_append_drop shift front).symm
      _ <+: front.take shift ++ back := (List.prefix_append_right_inj _).2 hprefix
  · show back <+: (front.take shift ++ back).drop shift
    rw [List.drop_left' (List.length_take_of_le (Nat.le_of_lt hshift))]

/-! ## Words that occur before their place -/

/-- So many bytes of a block that is repeated without end. -/
def repeated (length : Nat) (block : Bytes) : Bytes :=
  (List.range length).map fun place => block.getD (place % block.length) 0

@[simp] theorem length_repeated (length : Nat) (block : Bytes) :
    (repeated length block).length = length := by
  simp [repeated]

/-- Each byte of a word that repeats a block is the byte of the block at its place, counted
around. -/
theorem eq_repeated_iff {block : Bytes} :
    word = repeated word.length block ↔
      ∀ (place : Nat) (hplace : place < word.length),
        word[place] = block.getD (place % block.length) 0 := by
  constructor
  · intro h place hplace
    have hread := congrArg (·[place]?) h
    simpa [repeated, hplace] using hread
  · intro h
    apply List.ext_getElem
    · simp
    · intro place hplace _
      rw [h place hplace]
      simp [repeated]

/-- A word that is put behind a block begins with that block, and goes on as it began,
exactly if it repeats the block. -/
theorem prefix_append_self_iff {block : Bytes} (hblock : block ≠ []) :
    word <+: block ++ word ↔ word = repeated word.length block := by
  have hpositive := List.length_pos_iff.2 hblock
  rw [eq_repeated_iff, List.prefix_iff_getElem?]
  constructor
  · intro h place
    induction place using Nat.strongRecOn with
    | ind place ih =>
        intro hplace
        have hread := h place hplace
        by_cases hinside : place < block.length
        · rw [List.getElem?_append_left hinside] at hread
          rw [Nat.mod_eq_of_lt hinside, List.getD_eq_getElem?_getD, hread]
          rfl
        · -- one block earlier the word reads the same
          rw [List.getElem?_append_right (by omega), List.getElem?_eq_getElem (by omega)] at hread
          rw [Nat.mod_eq_sub_mod (by omega), ← ih _ (by omega) (by omega)]
          exact (Option.some.inj hread).symm
  · intro h place hplace
    rw [h place hplace]
    by_cases hinside : place < block.length
    · rw [List.getElem?_append_left hinside, Nat.mod_eq_of_lt hinside]
      simp [hinside]
    · rw [List.getElem?_append_right (by omega), List.getElem?_eq_getElem (by omega),
        h _ (by omega), ← Nat.mod_eq_sub_mod (by omega)]

/-- Where a word that was appended to a text occurs before its place. -/
theorem occursAt_append_self_iff {start : Nat} (hstart : start < front.length) :
    OccursAt word start (front ++ word) ↔ word = repeated word.length (front.drop start) := by
  rw [← prefix_append_self_iff]
  · rw [OccursAt, List.drop_append_of_le_length (Nat.le_of_lt hstart)]
  · rw [← List.length_pos_iff, List.length_drop]
    omega

/-- A word that occurs before its place, and begins with zeros up to there at least, is
zero throughout. -/
theorem OccursAt.eq_replicate_zero {start : Nat} (h : OccursAt word start (front ++ word))
    (hstart : start < front.length)
    (hzeros : ∀ place < front.length - start, word[place]? = some 0) :
    word = List.replicate word.length 0 := by
  have hrepeats := (occursAt_append_self_iff hstart).1 h
  apply List.ext_getElem
  · simp
  · intro place hplace _
    have hpositive : 0 < (front.drop start).length := by
      rw [List.length_drop]
      omega
    -- the byte is one of the first ones again
    have hfirst : place % (front.drop start).length < front.length - start := by
      have hlt := Nat.mod_lt place hpositive
      rwa [List.length_drop] at hlt ⊢
    have hbyte := eq_repeated_iff.1 hrepeats place hplace
    have hle := Nat.mod_le place (front.drop start).length
    have hagain := eq_repeated_iff.1 hrepeats (place % (front.drop start).length) (by omega)
    rw [Nat.mod_mod, ← hbyte] at hagain
    have hzero := hzeros _ hfirst
    rw [List.getElem?_eq_getElem (by omega), hagain] at hzero
    simpa using hzero

/-- A word that was appended to a text is found at its place exactly if it does not repeat
any end of the text. -/
theorem firstIndex?_append_self_iff (hword : word ≠ []) :
    firstIndex? word (front ++ word) = some front.length ↔
      ∀ start < front.length, word ≠ repeated word.length (front.drop start) := by
  have hplace : OccursAt word front.length (front ++ word) := by
    show word <+: (front ++ word).drop front.length
    rw [List.drop_left]
  rw [firstIndex?_eq_some_iff]
  constructor
  · rintro ⟨_, _, hfirst⟩ start hstart hrepeats
    exact hfirst start hstart ((occursAt_append_self_iff hstart).2 hrepeats)
  · intro h
    refine ⟨hword, hplace, fun start hstart hoccurs => ?_⟩
    exact h start hstart ((occursAt_append_self_iff hstart).1 hoccurs)

end SwapCompiler.Bytes
