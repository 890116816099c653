import SwapCompiler.Field
import Mathlib.Data.List.Infix

/-!
# What the search for a pattern finds

`firstIndex?` finds a nonempty pattern exactly where it occurs first, and finds
nothing exactly if it does not occur.

* `OccursAt.window` and `OccursAt.add_length_le` say what an occurrence is worth to
  whoever reads the text at its index.
* `firstIndex?_append` and `exists_firstIndex?_append_left`: what is found stays found where it is
  if the text goes on behind it, and is found no later than it stands if text comes in front.
* `exists_locate_iff` says when the search for a mandatory pattern succeeds: its
  text may be put together in any way around the pattern.
-/

namespace SwapCompiler.Bytes

variable {pattern text : Bytes} {index : Nat}

theorem firstIndexFrom_zero_cons (pattern : Bytes) (byte : UInt8) (rest : Bytes) :
    firstIndexFrom pattern 0 (byte :: rest) =
      if pattern <+: byte :: rest then some 0
      else (firstIndexFrom pattern 0 rest).map (1 + ·) := by
  rw [firstIndexFrom, firstIndexFrom_eq_map pattern (0 + 1)]
  simp only [List.isPrefixOf_iff_prefix, Nat.zero_add]

/-- Found is the first occurrence. -/
theorem occursAt_of_firstIndexFrom (h : firstIndexFrom pattern 0 text = some index) :
    OccursAt pattern index text ∧ ∀ earlier < index, ¬ OccursAt pattern earlier text := by
  induction text generalizing index with
  | nil => exact nomatch h
  | cons byte rest ih =>
      rw [firstIndexFrom_zero_cons] at h
      split at h
      · next hhere =>
          obtain rfl := Option.some.inj h
          exact ⟨hhere, fun _ hlt => absurd hlt (Nat.not_lt_zero _)⟩
      · next hhere =>
          obtain ⟨later, hlater, rfl⟩ := Option.map_eq_some_iff.1 h
          obtain ⟨hoccurs, hfirst⟩ := ih hlater
          rw [Nat.add_comm]
          refine ⟨hoccurs, fun earlier hlt => ?_⟩
          cases earlier with
          | zero => exact hhere
          | succ earlier => exact hfirst earlier (by omega)

/-- A pattern that is not found does not occur. -/
theorem not_occursAt_of_firstIndexFrom (hpattern : pattern ≠ [])
    (h : firstIndexFrom pattern 0 text = none) : ¬ OccursAt pattern index text := by
  induction text generalizing index with
  | nil =>
      rw [OccursAt, List.drop_nil, List.prefix_nil]
      exact hpattern
  | cons byte rest ih =>
      rw [firstIndexFrom_zero_cons] at h
      split at h
      · exact nomatch h
      · next hhere =>
          cases index with
          | zero => exact hhere
          | succ index => exact ih (Option.map_eq_none_iff.1 h)

/-- A nonempty pattern is found at an index exactly if it occurs there and
nowhere before. -/
theorem firstIndex?_eq_some_iff :
    firstIndex? pattern text = some index ↔
      pattern ≠ [] ∧ OccursAt pattern index text ∧
        ∀ earlier < index, ¬ OccursAt pattern earlier text := by
  by_cases hpattern : pattern = []
  · simp [hpattern]
  · rw [firstIndex?, if_neg (by simpa using hpattern)]
    constructor
    · intro h
      exact ⟨hpattern, occursAt_of_firstIndexFrom h⟩
    · rintro ⟨_, hoccurs, hfirst⟩
      cases hfound : firstIndexFrom pattern 0 text with
      | none => exact absurd hoccurs (not_occursAt_of_firstIndexFrom hpattern hfound)
      | some found =>
          obtain ⟨hfoundOccurs, hfoundFirst⟩ := occursAt_of_firstIndexFrom hfound
          rcases Nat.lt_trichotomy found index with hlt | heq | hgt
          · exact absurd hfoundOccurs (hfirst found hlt)
          · rw [heq]
          · exact absurd hoccurs (hfoundFirst index hgt)

/-- A nonempty pattern is not found exactly if it occurs nowhere. -/
theorem firstIndex?_eq_none_iff (hpattern : pattern ≠ []) :
    firstIndex? pattern text = none ↔ ∀ index, ¬ OccursAt pattern index text := by
  rw [firstIndex?, if_neg (by simpa using hpattern)]
  constructor
  · intro h index
    exact not_occursAt_of_firstIndexFrom hpattern h
  · intro hnone
    cases hfound : firstIndexFrom pattern 0 text with
    | none => rfl
    | some found => exact absurd (occursAt_of_firstIndexFrom hfound).1 (hnone found)

/-! ## Occurrences -/

theorem exists_occursAt_iff : (∃ index, OccursAt pattern index text) ↔ pattern <:+: text := by
  constructor
  · rintro ⟨index, hoccurs⟩
    exact hoccurs.isInfix.trans (List.drop_suffix index text).isInfix
  · rintro ⟨front, back, rfl⟩
    refine ⟨front.length, ?_⟩
    show pattern <+: (front ++ pattern ++ back).drop front.length
    rw [List.append_assoc, List.drop_left]
    exact List.prefix_append pattern back

/-- The bytes at an occurrence are the pattern. -/
theorem OccursAt.window (h : OccursAt pattern index text) :
    (text.drop index).take pattern.length = pattern :=
  (List.prefix_iff_eq_take.1 h).symm

/-- An occurrence reads, byte for byte, as its pattern. -/
theorem OccursAt.getElem? (h : OccursAt pattern index text) {place : Nat}
    (hplace : place < pattern.length) : text[index + place]? = some pattern[place] := by
  rw [← List.getElem?_drop]
  exact List.prefix_iff_getElem?.1 h place hplace

/-- An occurrence of a nonempty pattern lies inside the text. -/
theorem OccursAt.add_length_le (hpattern : pattern ≠ []) (h : OccursAt pattern index text) :
    index + pattern.length ≤ text.length := by
  have hlength := h.length_le
  have hpositive := List.length_pos_iff.2 hpattern
  rw [List.length_drop] at hlength
  omega

/-- What occurs in a text occurs at the same place in any longer text. -/
theorem OccursAt.append (h : OccursAt pattern index text) (tail : Bytes) :
    OccursAt pattern index (text ++ tail) := by
  rw [OccursAt, List.drop_append]
  exact h.trans (List.prefix_append _ _)

theorem occursAt_of_firstIndex? (h : firstIndex? pattern text = some index) :
    OccursAt pattern index text :=
  (firstIndex?_eq_some_iff.1 h).2.1

/-- A pattern is found if it stands anywhere in the text. -/
theorem exists_firstIndex?_iff (hpattern : pattern ≠ []) :
    (∃ index, firstIndex? pattern text = some index) ↔ pattern <:+: text := by
  constructor
  · rintro ⟨index, hindex⟩
    exact exists_occursAt_iff.1 ⟨index, occursAt_of_firstIndex? hindex⟩
  · intro hinfix
    obtain ⟨index, hoccurs⟩ := exists_occursAt_iff.2 hinfix
    cases hfound : firstIndex? pattern text with
    | some found => exact ⟨found, rfl⟩
    | none => exact absurd hoccurs ((firstIndex?_eq_none_iff hpattern).1 hfound index)

/-- No occurrence starts before the one that is found. -/
theorem le_of_occursAt {found : Nat} (h : firstIndex? pattern text = some found)
    (hoccurs : OccursAt pattern index text) : found ≤ index := by
  by_contra hlt
  exact (firstIndex?_eq_some_iff.1 h).2.2 index (by omega) hoccurs

/-- What is found in a text is found there in any longer text. -/
theorem firstIndex?_append (h : firstIndex? pattern text = some index) (tail : Bytes) :
    firstIndex? pattern (text ++ tail) = some index := by
  obtain ⟨hpattern, hoccurs, hfirst⟩ := firstIndex?_eq_some_iff.1 h
  have hinside := hoccurs.add_length_le hpattern
  refine firstIndex?_eq_some_iff.2 ⟨hpattern, ?_, fun earlier hlt hearlier => ?_⟩
  · exact hoccurs.append tail
  · -- an earlier occurrence would end inside the text as well
    refine hfirst earlier hlt ?_
    have hprefix : pattern <+: text.drop earlier ++ tail := by
      rw [← List.drop_append_of_le_length (by omega)]
      exact hearlier
    refine List.prefix_of_prefix_length_le hprefix (List.prefix_append _ _) ?_
    rw [List.length_drop]
    omega

/-- What occurs in a text occurs behind any text in front of it, further on by as much. -/
theorem OccursAt.append_left (h : OccursAt pattern index text) (front : Bytes) :
    OccursAt pattern (front.length + index) (front ++ text) := by
  rwa [OccursAt, List.drop_length_add_append]

/-- What is found in a text is found behind any text in front of it; an occurrence that begins
in the text in front may come first. -/
theorem exists_firstIndex?_append_left (h : firstIndex? pattern text = some index)
    (front : Bytes) :
    ∃ found ≤ front.length + index, firstIndex? pattern (front ++ text) = some found := by
  obtain ⟨hpattern, hoccurs, _⟩ := firstIndex?_eq_some_iff.1 h
  have hbehind := hoccurs.append_left front
  obtain ⟨found, hfound⟩ :=
    (exists_firstIndex?_iff hpattern).2 (exists_occursAt_iff.1 ⟨_, hbehind⟩)
  exact ⟨found, le_of_occursAt hfound hbehind, hfound⟩

/-- The search finds the least index at which a nonempty pattern occurs, and nothing exactly if
the pattern is empty or does not occur.  Bytes behind the text do not change what is found;
bytes in front move it back by their count at most. -/
theorem firstIndex?_least (pattern text : Bytes) :
    (∀ index, firstIndex? pattern text = some index ↔
      pattern ≠ [] ∧ OccursAt pattern index text ∧
        ∀ earlier < index, ¬ OccursAt pattern earlier text) ∧
    (firstIndex? pattern text = none ↔
      pattern = [] ∨ ∀ index, ¬ OccursAt pattern index text) ∧
    (pattern ≠ [] → (∃ index, OccursAt pattern index text) →
      ∃ index, firstIndex? pattern text = some index ∧
        (∀ tail, firstIndex? pattern (text ++ tail) = some index) ∧
        ∀ front, ∃ found ≤ front.length + index,
          firstIndex? pattern (front ++ text) = some found) := by
  refine ⟨fun _ => firstIndex?_eq_some_iff, ?_, fun hpattern hoccurs => ?_⟩
  · by_cases hpattern : pattern = []
    · simp [hpattern]
    · rw [firstIndex?_eq_none_iff hpattern, or_iff_right hpattern]
  · obtain ⟨index, hindex⟩ :=
      (exists_firstIndex?_iff hpattern).2 (exists_occursAt_iff.1 hoccurs)
    exact ⟨index, hindex, firstIndex?_append hindex, exists_firstIndex?_append_left hindex⟩

/-- A pattern that overlaps itself: one more of its bytes in front lets it begin there. -/
theorem firstIndex?_least_overlap :
    ([1, 1] : Bytes) ≠ [] ∧ OccursAt [1, 1] 0 [1, 1, 0] ∧
      firstIndex? [1, 1] ([1, 1, 0] ++ [1, 1]) = some 0 ∧
      ∃ found ≤ 1, firstIndex? [1, 1] ([1] ++ [1, 1, 0]) = some found := by
  have hpattern : ([1, 1] : Bytes) ≠ [] := by decide
  have hoccurs : OccursAt [1, 1] 0 [1, 1, 0] := by decide
  obtain ⟨index, hindex, hbehind, hfront⟩ :=
    (firstIndex?_least [1, 1] [1, 1, 0]).2.2 hpattern ⟨0, hoccurs⟩
  have hzero : firstIndex? [1, 1] [1, 1, 0] = some 0 := by decide
  obtain rfl := Option.some.inj (hzero.symm.trans hindex)
  exact ⟨hpattern, hoccurs, hbehind [1, 1], hfront [1]⟩

/-- A text is searched from its front. -/
theorem firstIndex?_eq_zero (hpattern : pattern ≠ []) (h : pattern <+: text) :
    firstIndex? pattern text = some 0 := by
  refine firstIndex?_eq_some_iff.2 ⟨hpattern, ?_, fun earlier hlt => absurd hlt (Nat.not_lt_zero _)⟩
  show pattern <+: text.drop 0
  rwa [List.drop_zero]

/-- What is found elsewhere than in front does not stand in front. -/
theorem ne_zero_iff_of_firstIndex? (h : firstIndex? pattern text = some index) :
    index ≠ 0 ↔ ¬ pattern <+: text := by
  obtain ⟨hpattern, hoccurs, _⟩ := firstIndex?_eq_some_iff.1 h
  constructor
  · intro hindex hprefix
    rw [firstIndex?_eq_zero hpattern hprefix] at h
    exact hindex (Option.some.inj h).symm
  · rintro hprefix rfl
    rw [OccursAt, List.drop_zero] at hoccurs
    exact hprefix hoccurs

end SwapCompiler.Bytes

namespace SwapCompiler

/-- The search for a mandatory pattern succeeds exactly if the pattern stands in the
text. -/
theorem exists_locate_iff (what : String) {pattern text : Bytes} (hpattern : pattern ≠ []) :
    (∃ index, locate what pattern text = .ok index) ↔ pattern <:+: text := by
  simp only [locate_eq_ok_iff]
  exact Bytes.exists_firstIndex?_iff hpattern

theorem Bytes.word_ne_nil (value : Nat) : Bytes.word value ≠ [] := by
  rw [← List.length_pos_iff, Bytes.length_word]
  omega

theorem Address.word_ne_nil (address : Address) : address.word ≠ [] := by
  rw [← List.length_pos_iff, address.length_word]
  omega

theorem Address.bytes_ne_nil (address : Address) : address.bytes ≠ [] := by
  rw [← List.length_pos_iff, address.length_bytes]
  omega

end SwapCompiler
