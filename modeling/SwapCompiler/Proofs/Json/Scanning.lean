import SwapCompiler.Proofs.Json.Numbers

/-!
# Scanning written texts

What the pass over the characters makes of the texts that are written, piece by piece.

* `Scan.Closes` is a text behind which the pass stands between two tokens; such texts can be put
  one behind the other.
* `Scan.Spells` is a text that may end in a bare word; it needs a mark or the end of the whole
  text behind it.
* `Scan.closes_writeString` and `Scan.spells_writeNumber` say so of written strings and numbers.
-/

namespace SwapCompiler.Json

/-! ## Strings -/

/-- No character is a surrogate, so the units of a text are its characters. -/
theorem joinUnits_map_toNat (text : List Char) : joinUnits (text.map Char.toNat) = some text := by
  induction text with
  | nil => rfl
  | cons c rest ih =>
      have hvalid : c.toNat.isValidChar := c.valid
      have hsurrogate : ¬ (0xd800 ≤ c.toNat ∧ c.toNat < 0xe000) := by
        rcases hvalid with hlow | hhigh <;> omega
      rw [List.map_cons, joinUnits.eq_def]
      dsimp only
      rw [if_neg (by omega), if_neg (by omega), ih, Option.map_some, Char.ofNat_toNat]

namespace Scan

variable {c : Char} {front back text : List Char} {tokens : List Token}

/-- A character inside a written string is taken in as itself. -/
theorem foldlM_writeChar (c : Char) (units : List Nat) (tokens : List Token) :
    (writeChar c).foldlM step (quoted units, tokens) =
      some (quoted (c.toNat :: units), tokens) := by
  unfold writeChar
  split
  · next hquote =>
      rw [hquote]
      rfl
  · next hquote =>
      split
      · next hbackslash =>
          rw [hbackslash]
          rfl
      · next hbackslash =>
          split
          · next hcontrol =>
              have hhigh := Bytes.Hex.digitValue?_digit (c.toNat / 16) (by omega)
              have hlow := Bytes.Hex.digitValue?_digit (c.toNat % 16) (by omega)
              have hzero : Bytes.Hex.digitValue? '0' = some 0 := by decide
              have hvalue : (((0 * 16 + 0) * 16 + 0) * 16 + c.toNat / 16) * 16 + c.toNat % 16 =
                  c.toNat := by omega
              simp [step, hhigh, hlow, hzero]
              omega
          · next hcontrol =>
              simp [step, hquote, hbackslash, hcontrol]

theorem foldlM_flatMap_writeChar (text : List Char) (units : List Nat) (tokens : List Token) :
    (text.flatMap writeChar).foldlM step (quoted units, tokens) =
      some (quoted ((text.map Char.toNat).reverse ++ units), tokens) := by
  induction text generalizing units with
  | nil => rfl
  | cons c rest ih =>
      rw [List.flatMap_cons, List.foldlM_append, foldlM_writeChar, Option.bind_eq_bind,
        Option.bind_some, ih]
      simp

/-! ## Texts that spell tokens -/

/-- The pass has taken in these tokens, last first, and goes on as from between two tokens with
every character that is not part of a word. -/
structure Holds (state : Scan × List Token) (tokens : List Token) : Prop where
  finish_eq : finish state = some tokens.reverse
  step_eq : ∀ c, isWordChar c = false → step state c = start tokens c

/-- The text spells the tokens, and its last token is at its end. -/
def Closes (text : List Char) (added : List Token) : Prop :=
  ∀ tokens, text.foldlM step (between, tokens) = some (between, added.reverse ++ tokens)

/-- The text spells the tokens, if no character of a word follows. -/
def Spells (text : List Char) (added : List Token) : Prop :=
  ∀ tokens, ∃ state, text.foldlM step (between, tokens) = some state ∧
    Holds state (added.reverse ++ tokens)

variable {added more : List Token} {token : Token}

theorem holds_between (tokens : List Token) : Holds (between, tokens) tokens :=
  ⟨rfl, fun _ _ => rfl⟩

theorem Closes.spells (h : Closes text added) : Spells text added :=
  fun tokens => ⟨_, h tokens, holds_between _⟩

theorem closes_nil : Closes [] [] := fun _ => rfl

theorem Closes.append (hfront : Closes front added) (hback : Closes back more) :
    Closes (front ++ back) (added ++ more) := by
  intro tokens
  rw [List.foldlM_append, hfront tokens, Option.bind_eq_bind, Option.bind_some, hback,
    List.reverse_append, List.append_assoc]

theorem Closes.append_spells (hfront : Closes front added) (hback : Spells back more) :
    Spells (front ++ back) (added ++ more) := by
  intro tokens
  obtain ⟨state, hstate, hholds⟩ := hback (added.reverse ++ tokens)
  refine ⟨state, ?_, ?_⟩
  · rw [List.foldlM_append, hfront tokens, Option.bind_eq_bind, Option.bind_some, hstate]
  · rwa [List.reverse_append, List.append_assoc]

/-- A mark is its token wherever it stands. -/
theorem start_mark (h : Token.ofMark? c = some token) (tokens : List Token) :
    start tokens c = some (between, token :: tokens) ∧ isWordChar c = false := by
  unfold Token.ofMark? at h
  split at h <;> cases h <;> exact ⟨rfl, by decide⟩

theorem closes_mark (h : Token.ofMark? c = some token) : Closes [c] [token] := by
  intro tokens
  rw [List.foldlM_cons, step, (start_mark h tokens).1]
  rfl

/-- A mark ends the text in front of it. -/
theorem Spells.append_mark (htext : Spells text added) (h : Token.ofMark? c = some token) :
    Closes (text ++ [c]) (added ++ [token]) := by
  intro tokens
  obtain ⟨state, hstate, hholds⟩ := htext tokens
  obtain ⟨hstart, hword⟩ := start_mark h (added.reverse ++ tokens)
  rw [List.foldlM_append, hstate, Option.bind_eq_bind, Option.bind_some, List.foldlM_cons,
    hholds.step_eq c hword, hstart]
  simp

theorem closes_writeString (content : Option String) :
    Closes (writeString content) [.string content] := by
  intro tokens
  cases content with
  | none => rfl
  | some content =>
      have hopen : step (between, tokens) '"' = some (quoted [], tokens) := rfl
      have hcontent : joinUnits ((content.toList.map Char.toNat).reverse ++ []).reverse =
          some content.toList := by
        rw [List.append_nil, List.reverse_reverse, joinUnits_map_toNat]
      rw [writeString, List.cons_append, List.foldlM_cons, hopen, Option.bind_eq_bind,
        Option.bind_some, List.foldlM_append, foldlM_flatMap_writeChar, Option.bind_eq_bind,
        Option.bind_some, List.foldlM_cons, step, if_pos rfl, hcontent, Option.map_some,
        String.ofList_toList]
      rfl

/-- A character of a word is neither blank nor a quote. -/
theorem start_wordChar (h : isWordChar c = true) (tokens : List Token) :
    start tokens c = some (word [c], tokens) := by
  have hspace : isSpace c ≠ true := by
    intro hspace
    simp only [isSpace, Bool.or_eq_true, decide_eq_true_eq] at hspace
    rcases hspace with ((rfl | rfl) | rfl) | rfl <;> exact absurd h (by decide)
  have hquote : c ≠ '"' := by
    rintro rfl
    exact absurd h (by decide)
  rw [start, if_neg hspace, if_neg hquote, if_pos h]

theorem foldlM_wordChars (hchars : ∀ c ∈ text, isWordChar c = true) (seen : List Char)
    (tokens : List Token) :
    text.foldlM step (word seen, tokens) = some (word (text.reverse ++ seen), tokens) := by
  induction text generalizing seen with
  | nil => rfl
  | cons c rest ih =>
      obtain ⟨hc, hrest⟩ := List.forall_mem_cons.1 hchars
      rw [List.foldlM_cons, step, if_pos hc, Option.bind_eq_bind, Option.bind_some, ih hrest]
      simp

/-- A run of word characters spells its value, if it is a bare word. -/
theorem spells_word {value : Json} (hne : text ≠ [])
    (hchars : ∀ c ∈ text, isWordChar c = true) (hvalue : word? text = some value) :
    Spells text [.word value] := by
  intro tokens
  refine ⟨(word text.reverse, tokens), ?_, ?_, fun c hc => ?_⟩
  · obtain ⟨c, rest, rfl⟩ := List.exists_cons_of_ne_nil hne
    obtain ⟨hc, hrest⟩ := List.forall_mem_cons.1 hchars
    rw [List.foldlM_cons, step, start_wordChar hc, Option.bind_eq_bind, Option.bind_some,
      foldlM_wordChars hrest, List.reverse_cons]
  · rw [finish, List.reverse_reverse, hvalue, Option.map_some]
    rfl
  · rw [step, if_neg (by rw [hc]; exact Bool.false_ne_true), List.reverse_reverse, hvalue,
      Option.bind_some]
    rfl

theorem spells_writeNumber (number : Number) :
    Spells (writeNumber number) [.word (.number number)] := by
  refine spells_word ?_ (isWordChar_writeNumber number) (word?_writeNumber number)
  intro hnil
  have hread := word?_writeNumber number
  rw [hnil] at hread
  exact nomatch hread

end Scan

end SwapCompiler.Json
