import SwapCompiler.Form.Request
import SwapCompiler.Proofs.Outcome
import Mathlib.Data.Nat.Digits.Defs

/-!
# The texts of amounts

The grammar of amounts, stated without the functions that read them, and what is read and
written by it:

* `Text.Numeral` is the grammar of numerals of a base, with the value of each;
* `Amount.Spells` is the grammar of amounts, and `Amount.Written` are the texts in which an
  amount is written;
* `Amount.read_eq_ok_iff_spells` says that exactly the texts of the grammar are read, with
  any blanks around them, and that what is written for an amount is read back as it.
-/

namespace SwapCompiler

namespace Text

variable {base value amount : Nat} {values : List Nat} {c : Char} {text rest bare : List Char}

/-! ## Digits -/

/-- The digits below sixteen, in order. -/
def lowerDigits : List Char :=
  ['0', '1', '2', '3', '4', '5', '6', '7', '8', '9', 'a', 'b', 'c', 'd', 'e', 'f']

/-- The same digits in capitals. -/
def upperDigits : List Char :=
  ['0', '1', '2', '3', '4', '5', '6', '7', '8', '9', 'A', 'B', 'C', 'D', 'E', 'F']

/-- The character is the digit of a value, in either case. -/
def IsDigit (value : Nat) (c : Char) : Prop :=
  lowerDigits[value]? = some c ∨ upperDigits[value]? = some c

theorem isDigit_of_digitValue? (h : Bytes.Hex.digitValue? c = some value) : IsDigit value c := by
  -- a character is settled by its code, and each of the three ranges of codes is short
  have hdecimal : ∀ code < 58, 48 ≤ code → IsDigit (code - 48) (Char.ofNat code) := by
    unfold IsDigit
    decide
  have hlower : ∀ code < 103, 97 ≤ code → IsDigit (code - 87) (Char.ofNat code) := by
    unfold IsDigit
    decide
  have hupper : ∀ code < 71, 65 ≤ code → IsDigit (code - 55) (Char.ofNat code) := by
    unfold IsDigit
    decide
  rw [← Char.ofNat_toNat c]
  unfold Bytes.Hex.digitValue? at h
  split at h
  · next hrange =>
      cases h
      exact hdecimal c.toNat (Nat.lt_succ_of_le hrange.2) hrange.1
  · split at h
    · next hrange =>
        cases h
        exact hlower c.toNat (Nat.lt_succ_of_le hrange.2) hrange.1
    · split at h
      · next hrange =>
          cases h
          exact hupper c.toNat (Nat.lt_succ_of_le hrange.2) hrange.1
      · cases h

theorem digitValue?_of_isDigit (h : IsDigit value c) : Bytes.Hex.digitValue? c = some value := by
  have hlower : ∀ value < 16, lowerDigits[value]?.bind Bytes.Hex.digitValue? = some value := by
    decide
  have hupper : ∀ value < 16, upperDigits[value]?.bind Bytes.Hex.digitValue? = some value := by
    decide
  rcases h with h | h
  · have hvalue := hlower value (List.getElem?_eq_some_iff.1 h).1
    rwa [h] at hvalue
  · have hvalue := hupper value (List.getElem?_eq_some_iff.1 h).1
    rwa [h] at hvalue

theorem digit?_eq_some_iff : digit? base c = some value ↔ value < base ∧ IsDigit value c := by
  simp only [digit?, Option.filter_eq_some_iff, decide_eq_true_eq]
  exact ⟨fun ⟨hc, hlt⟩ => ⟨hlt, isDigit_of_digitValue? hc⟩,
    fun ⟨hlt, hc⟩ => ⟨digitValue?_of_isDigit hc, hlt⟩⟩

/-! ## Numerals -/

/-- Text of digits of a base, with underscores anywhere, and the values of the digits. -/
inductive Digits (base : Nat) : List Char → List Nat → Prop
  | nil : Digits base [] []
  | digit {value : Nat} {c : Char} {rest : List Char} {values : List Nat} (hvalue : value < base)
      (hc : IsDigit value c) (hrest : Digits base rest values) :
      Digits base (c :: rest) (value :: values)
  | underscore {rest : List Char} {values : List Nat} (hrest : Digits base rest values) :
      Digits base ('_' :: rest) values

/-- The number with the given digits, most significant first. -/
def positional (base : Nat) (values : List Nat) : Nat :=
  Nat.ofDigits base values.reverse

/-- A numeral without a sign: its first character is a digit. -/
inductive Unsigned (base : Nat) : List Char → Nat → Prop
  | digits {value : Nat} {c : Char} {rest : List Char} {values : List Nat} (hvalue : value < base)
      (hc : IsDigit value c) (hrest : Digits base rest values) :
      Unsigned base (c :: rest) (positional base (value :: values))

/-- A numeral, with one plus sign or none. -/
inductive Numeral (base : Nat) : List Char → Nat → Prop
  | unsigned {text : List Char} {amount : Nat} (h : Unsigned base text amount) :
      Numeral base text amount
  | plus {text : List Char} {amount : Nat} (h : Unsigned base text amount) :
      Numeral base ('+' :: text) amount

theorem positional_eq_foldl (base : Nat) (values : List Nat) :
    positional base values = values.foldl (fun number value => number * base + value) 0 := by
  rw [positional, Nat.ofDigits_eq_foldr, List.foldr_reverse]
  congr 1
  funext number value
  rw [Nat.cast_id, Nat.add_comm, Nat.mul_comm]

theorem positional_concat (base : Nat) (values : List Nat) (value : Nat) :
    positional base (values ++ [value]) = positional base values * base + value := by
  rw [positional_eq_foldl, positional_eq_foldl, List.foldl_append, List.foldl_cons,
    List.foldl_nil]

theorem not_isDigit_underscore (value : Nat) : ¬ IsDigit value '_' := fun h =>
  nomatch digitValue?_of_isDigit h

theorem not_isDigit_plus (value : Nat) : ¬ IsDigit value '+' := fun h =>
  nomatch digitValue?_of_isDigit h

theorem appendDigit_eq_ok_iff {number next : Nat} :
    appendDigit base number c = .ok next ↔
      c = '_' ∧ next = number ∨
        ∃ value < base, IsDigit value c ∧ next = number * base + value := by
  unfold appendDigit
  split
  · next hc =>
      subst hc
      constructor
      · intro h
        exact .inl ⟨rfl, (Except.ok.inj h).symm⟩
      · rintro (⟨-, rfl⟩ | ⟨value, -, hdigit, -⟩)
        · rfl
        · exact absurd hdigit (not_isDigit_underscore value)
  · next hc =>
      split
      · next value hvalue =>
          obtain ⟨hlt, hdigit⟩ := digit?_eq_some_iff.1 hvalue
          constructor
          · intro h
            exact .inr ⟨value, hlt, hdigit, (Except.ok.inj h).symm⟩
          · rintro (⟨hunderscore, -⟩ | ⟨other, hother, hsame, rfl⟩)
            · exact absurd hunderscore hc
            · rw [digit?_eq_some_iff.2 ⟨hother, hsame⟩] at hvalue
              rw [Option.some.inj hvalue]
      · next hnone =>
          constructor
          · exact fun h => nomatch h
          · rintro (⟨hunderscore, -⟩ | ⟨value, hlt, hdigit, -⟩)
            · exact absurd hunderscore hc
            · rw [digit?_eq_some_iff.2 ⟨hlt, hdigit⟩] at hnone
              exact nomatch hnone

/-- Appending the characters of a text one by one appends the digits in it. -/
theorem foldlM_appendDigit_eq_ok_iff {number : Nat} :
    text.foldlM (appendDigit base) number = .ok amount ↔
      ∃ values, Digits base text values ∧
        values.foldl (fun number value => number * base + value) number = amount := by
  induction text generalizing number with
  | nil =>
      constructor
      · intro h
        exact ⟨[], .nil, Except.ok.inj h⟩
      · rintro ⟨values, hvalues, rfl⟩
        cases hvalues
        rfl
  | cons c rest ih =>
      rw [List.foldlM_cons, bind_eq_ok_iff]
      simp only [ih, appendDigit_eq_ok_iff]
      constructor
      · rintro ⟨next, ⟨rfl, rfl⟩ | ⟨value, hvalue, hc, rfl⟩, values, hrest, hamount⟩
        · exact ⟨values, .underscore hrest, hamount⟩
        · exact ⟨value :: values, .digit hvalue hc hrest, hamount⟩
      · rintro ⟨values, hvalues, hamount⟩
        cases hvalues with
        | digit hvalue hc hrest => exact ⟨_, .inr ⟨_, hvalue, hc, rfl⟩, _, hrest, hamount⟩
        | underscore hrest => exact ⟨_, .inl ⟨rfl, rfl⟩, _, hrest, hamount⟩

theorem numeral_eq_ok_iff_unsigned :
    numeral base text = .ok amount ↔ Unsigned base (withoutPlus text) amount := by
  unfold numeral
  generalize withoutPlus text = unsigned
  split
  · exact ⟨nofun, nofun⟩
  · refine ⟨nofun, fun h => ?_⟩
    cases h with
    | digits hvalue hc hrest => exact absurd hc (not_isDigit_underscore _)
  · next hnil hunderscore =>
      rw [foldlM_appendDigit_eq_ok_iff]
      constructor
      · rintro ⟨values, hvalues, rfl⟩
        rw [← positional_eq_foldl]
        cases hvalues with
        | nil => exact absurd rfl hnil
        | digit hvalue hc hrest => exact .digits hvalue hc hrest
        | underscore hrest => exact absurd rfl (hunderscore _)
      · intro h
        cases h with
        | digits hvalue hc hrest =>
            exact ⟨_, .digit hvalue hc hrest, (positional_eq_foldl base _).symm⟩

theorem not_unsigned_plus : ¬ Unsigned base ('+' :: rest) amount := fun h => by
  cases h with
  | digits hvalue hc hrest => exact not_isDigit_plus _ hc

/-- What is read as a numeral is what the grammar calls one, with the value it has there. -/
theorem numeral_eq_ok_iff : numeral base text = .ok amount ↔ Numeral base text amount := by
  rw [numeral_eq_ok_iff_unsigned]
  constructor
  · intro h
    unfold withoutPlus at h
    split at h
    · exact absurd h not_unsigned_plus
    · exact .plus h
    · exact .unsigned h
  · intro h
    cases h with
    | unsigned h =>
        -- an unsigned numeral begins with a digit, so no sign is taken from it
        unfold withoutPlus
        split
        · exact h
        · exact absurd h not_unsigned_plus
        · exact h
    | plus h =>
        unfold withoutPlus
        split
        · next heq =>
            cases heq
            exact absurd h not_unsigned_plus
        · next heq =>
            cases heq
            exact h
        · next hplus => exact absurd rfl (hplus _)

/-! ## Blanks at the ends -/

/-- The text is the bare one with nothing but blanks around it. -/
def Surrounded (text bare : List Char) : Prop :=
  ∃ before after, text = before ++ bare ++ after ∧ (∀ c ∈ before, isBlank c = true) ∧
    ∀ c ∈ after, isBlank c = true

theorem surrounded_trim (text : List Char) : Surrounded text (trim text) := by
  have hsplit := List.takeWhile_append_dropWhile (p := isBlank) (l := text)
  have htail := List.takeWhile_append_dropWhile (p := isBlank)
    (l := (text.dropWhile isBlank).reverse)
  refine ⟨text.takeWhile isBlank, ((text.dropWhile isBlank).reverse.takeWhile isBlank).reverse,
    ?_, List.all_eq_true.1 List.all_takeWhile, fun c hc => ?_⟩
  · rw [trim, List.append_assoc, ← List.reverse_append, htail, List.reverse_reverse, hsplit]
  · exact List.all_eq_true.1 List.all_takeWhile c (List.mem_reverse.1 hc)

/-- Nothing is taken from the front of text without blanks. -/
theorem dropWhile_append_of_not_blank (hne : text ≠ []) (htext : ∀ c ∈ text, isBlank c = false)
    (after : List Char) : (text ++ after).dropWhile isBlank = text ++ after := by
  obtain ⟨c, rest, rfl⟩ := List.exists_cons_of_ne_nil hne
  rw [List.cons_append, List.dropWhile_cons_of_neg]
  exact Bool.not_eq_true _ ▸ htext c List.mem_cons_self

/-- Text without blanks is what stays of it between blanks. -/
theorem trim_eq_of_surrounded (h : Surrounded text bare) (hne : bare ≠ [])
    (hbare : ∀ c ∈ bare, isBlank c = false) : trim text = bare := by
  obtain ⟨before, after, rfl, hbefore, hafter⟩ := h
  have hfront : (before ++ bare ++ after).dropWhile isBlank = bare ++ after := by
    rw [List.append_assoc, List.dropWhile_append_of_pos hbefore,
      dropWhile_append_of_not_blank hne hbare]
  have hback : (bare ++ after).reverse.dropWhile isBlank = bare.reverse := by
    rw [List.reverse_append,
      List.dropWhile_append_of_pos fun c hc => hafter c (List.mem_reverse.1 hc),
      ← List.append_nil bare.reverse]
    exact dropWhile_append_of_not_blank (List.reverse_ne_nil_iff.2 hne)
      (fun c hc => hbare c (List.mem_reverse.1 hc)) []
  rw [trim, hfront, hback, List.reverse_reverse]

theorem isBlank_of_isDigit (h : IsDigit value c) : isBlank c = false := by
  have hany : (lowerDigits ++ upperDigits).any isBlank = false := by decide
  have hmem : c ∈ lowerDigits ++ upperDigits :=
    List.mem_append.2 (h.imp List.mem_of_getElem? List.mem_of_getElem?)
  exact Bool.eq_false_iff.2 (List.any_eq_false.1 hany c hmem)

theorem Digits.not_blank (h : Digits base text values) : ∀ c ∈ text, isBlank c = false := by
  induction h with
  | nil => exact nofun
  | digit hvalue hc hrest ih => exact List.forall_mem_cons.2 ⟨isBlank_of_isDigit hc, ih⟩
  | underscore hrest ih => exact List.forall_mem_cons.2 ⟨by decide, ih⟩

theorem Unsigned.not_blank (h : Unsigned base text amount) : ∀ c ∈ text, isBlank c = false := by
  cases h with
  | digits hvalue hc hrest =>
      exact List.forall_mem_cons.2 ⟨isBlank_of_isDigit hc, hrest.not_blank⟩

theorem Numeral.not_blank (h : Numeral base text amount) : ∀ c ∈ text, isBlank c = false := by
  cases h with
  | unsigned h => exact h.not_blank
  | plus h => exact List.forall_mem_cons.2 ⟨by decide, h.not_blank⟩

theorem Numeral.ne_nil (h : Numeral base text amount) : text ≠ [] := by
  rcases h with ⟨⟨⟩⟩ | _ <;> exact List.cons_ne_nil _ _

/-! ## Written digits -/

theorem upperDigits_eq : upperDigits = lowerDigits.map Char.toUpper := by decide

theorem lowerDigits_digitChar : ∀ value < 16, lowerDigits[value]? = some value.digitChar := by
  decide

/-- The characters are the digits of a number, each in either case. -/
def EitherCase (digits text : List Char) : Prop :=
  List.Forall₂ (fun digit c => c = digit ∨ c = digit.toUpper) digits text

theorem eitherCase_refl (digits : List Char) : EitherCase digits digits :=
  List.forall₂_same.2 fun _ _ => .inl rfl

/-- The digits that are written for a number have it as their positional value. -/
theorem exists_values_toDigits (hbase : 1 < base) (hle : base ≤ 16) (amount : Nat) :
    ∃ values, List.Forall₂ (fun value c => value < base ∧ lowerDigits[value]? = some c) values
      (Nat.toDigits base amount) ∧ positional base values = amount := by
  -- all digits but the last are those of the quotient by the base
  induction amount using Nat.strong_induction_on with
  | _ amount ih =>
      have hdigit {value : Nat} (hvalue : value < base) :
          value < base ∧ lowerDigits[value]? = some value.digitChar :=
        ⟨hvalue, lowerDigits_digitChar value (Nat.lt_of_lt_of_le hvalue hle)⟩
      by_cases hlt : amount < base
      · refine ⟨[amount], ?_, ?_⟩
        · rw [Nat.toDigits_of_lt_base hlt]
          exact .cons (hdigit hlt) .nil
        · rw [positional_eq_foldl, List.foldl_cons, List.foldl_nil, Nat.zero_mul, Nat.zero_add]
      · have hpos : 0 < amount := by omega
        obtain ⟨values, hvalues, hquotient⟩ := ih (amount / base) (Nat.div_lt_self hpos hbase)
        refine ⟨values ++ [amount % base], ?_, ?_⟩
        · rw [Nat.toDigits_of_base_le hbase (Nat.le_of_not_lt hlt)]
          exact List.rel_append hvalues
            (.cons (hdigit (Nat.mod_lt amount (Nat.zero_lt_of_lt hbase))) .nil)
        · rw [positional_concat, hquotient, Nat.mul_comm, Nat.div_add_mod]

theorem digits_of_forall₂ (h : List.Forall₂ (fun value c => value < base ∧ IsDigit value c) values
    text) : Digits base text values := by
  induction h with
  | nil => exact .nil
  | cons hc hrest ih => exact .digit hc.1 hc.2 ih

theorem isDigit_of_eitherCase {digit : Char} (h : lowerDigits[value]? = some digit)
    (hc : c = digit ∨ c = digit.toUpper) : IsDigit value c := by
  rcases hc with rfl | rfl
  · exact .inl h
  · refine .inr ?_
    rw [upperDigits_eq, List.getElem?_map, h, Option.map_some]

theorem forall₂_isDigit_of_eitherCase {digits : List Char}
    (hvalues : List.Forall₂ (fun value c => value < base ∧ lowerDigits[value]? = some c) values
      digits) (h : EitherCase digits text) :
    List.Forall₂ (fun value c => value < base ∧ IsDigit value c) values text := by
  induction hvalues generalizing text with
  | nil =>
      cases h
      exact .nil
  | cons hdigit hrest ih =>
      cases h with
      | cons hc hothers =>
          exact .cons ⟨hdigit.1, isDigit_of_eitherCase hdigit.2 hc⟩ (ih hothers)

/-- The written digits of a number are a numeral of that number, in either case. -/
theorem unsigned_of_toDigits (hbase : 1 < base) (hle : base ≤ 16)
    (h : EitherCase (Nat.toDigits base amount) text) : Unsigned base text amount := by
  obtain ⟨values, hvalues, rfl⟩ := exists_values_toDigits hbase hle amount
  have htext := forall₂_isDigit_of_eitherCase hvalues h
  cases htext with
  | nil => exact absurd (List.forall₂_nil_left_iff.1 hvalues) Nat.toDigits_ne_nil
  | cons hc hrest => exact .digits hc.1 hc.2 (digits_of_forall₂ hrest)

end Text

namespace Amount

variable {text bare : List Char} {amount : Nat}

/-! ## Amounts -/

/-- The grammar of amounts, without blanks around them. -/
inductive Spells : List Char → Nat → Prop
  | decimal {text : List Char} {amount : Nat} (h : Text.Numeral 10 text amount) :
      Spells text amount
  | hexadecimal {mark : Char} {text : List Char} {amount : Nat} (hmark : mark = 'x' ∨ mark = 'X')
      (h : Text.Numeral 16 text amount) : Spells ('0' :: mark :: text) amount
  | markAlone {mark : Char} (hmark : mark = 'x' ∨ mark = 'X') : Spells ['0', mark] 0

/-- The texts in which an amount is written: its decimal digits, and its hexadecimal digits
of either case behind a mark of either case. -/
inductive Written (amount : Nat) : List Char → Prop
  | decimal : Written amount (Nat.toDigits 10 amount)
  | hexadecimal {mark : Char} {digits : List Char} (hmark : mark = 'x' ∨ mark = 'X')
      (h : Text.EitherCase (Nat.toDigits 16 amount) digits) :
      Written amount ('0' :: mark :: digits)

theorem afterMark?_eq_some_iff {rest : List Char} :
    afterMark? text = some rest ↔
      ∃ mark, (mark = 'x' ∨ mark = 'X') ∧ text = '0' :: mark :: rest := by
  constructor
  · intro h
    unfold afterMark? at h
    split at h
    · cases h
      exact ⟨'x', .inl rfl, rfl⟩
    · cases h
      exact ⟨'X', .inr rfl, rfl⟩
    · exact nomatch h
  · rintro ⟨mark, rfl | rfl, rfl⟩ <;> rfl

/-- Neither letter of the mark is a decimal digit. -/
theorem not_numeral_marked {mark : Char} {rest : List Char} (hmark : mark = 'x' ∨ mark = 'X') :
    ¬ Text.Numeral 10 ('0' :: mark :: rest) amount := by
  intro h
  rw [← Text.numeral_eq_ok_iff] at h
  rcases hmark with rfl | rfl <;> exact nomatch h

theorem Spells.not_blank (h : Spells text amount) : ∀ c ∈ text, Text.isBlank c = false := by
  have hmarked {mark : Char} (hmark : mark = 'x' ∨ mark = 'X') {rest : List Char}
      (hrest : ∀ c ∈ rest, Text.isBlank c = false) :
      ∀ c ∈ '0' :: mark :: rest, Text.isBlank c = false := by
    refine List.forall_mem_cons.2 ⟨by decide, List.forall_mem_cons.2 ⟨?_, hrest⟩⟩
    rcases hmark with rfl | rfl <;> decide
  cases h with
  | decimal h => exact h.not_blank
  | hexadecimal hmark h => exact hmarked hmark h.not_blank
  | markAlone hmark => exact hmarked hmark nofun

theorem Spells.ne_nil (h : Spells text amount) : text ≠ [] := by
  cases h with
  | decimal h => exact h.ne_nil
  | hexadecimal | markAlone => exact List.cons_ne_nil _ _

theorem read_eq_ok_iff {text : String} :
    read text = .ok amount ↔ Spells (Text.trim text.toList) amount := by
  unfold read
  generalize Text.trim text.toList = bare
  dsimp only
  split
  · next hmarked =>
      obtain ⟨mark, hmark, rfl⟩ := afterMark?_eq_some_iff.1 hmarked
      constructor
      · intro h
        cases h
        exact .markAlone hmark
      · intro h
        cases h with
        | decimal h => exact absurd h (not_numeral_marked hmark)
        | hexadecimal _ h => exact absurd rfl h.ne_nil
        | markAlone => rfl
  · next digits hdigits hmarked =>
      obtain ⟨mark, hmark, rfl⟩ := afterMark?_eq_some_iff.1 hmarked
      rw [mapError_eq_ok_iff, Text.numeral_eq_ok_iff]
      constructor
      · exact .hexadecimal hmark
      · intro h
        cases h with
        | decimal h => exact absurd h (not_numeral_marked hmark)
        | hexadecimal _ h => exact h
        | markAlone => exact absurd rfl hdigits
  · next hmarked =>
      rw [mapError_eq_ok_iff, Text.numeral_eq_ok_iff]
      constructor
      · exact .decimal
      · intro h
        cases h with
        | decimal h => exact h
        | hexadecimal hmark h =>
            rw [afterMark?_eq_some_iff.2 ⟨_, hmark, rfl⟩] at hmarked
            exact nomatch hmarked
        | markAlone hmark =>
            rw [afterMark?_eq_some_iff.2 ⟨_, hmark, rfl⟩] at hmarked
            exact nomatch hmarked

theorem Written.spells (h : Written amount text) : Spells text amount := by
  cases h with
  | decimal =>
      exact .decimal (.unsigned
        (Text.unsigned_of_toDigits (by decide) (by decide) (Text.eitherCase_refl _)))
  | hexadecimal hmark h =>
      exact .hexadecimal hmark (.unsigned (Text.unsigned_of_toDigits (by decide) (by decide) h))

theorem written_write (amount : Nat) : Written amount (write amount).toList := by
  rw [write, String.toList_ofList]
  exact .decimal

theorem written_writeHex (amount : Nat) : Written amount (writeHex amount).toList := by
  rw [writeHex, String.toList_append, String.toList_ofList, String.toList_ofList]
  exact .hexadecimal (.inl rfl) (Text.eitherCase_refl _)

/-- Exactly the texts of the grammar are read as amounts, with any blanks around them, and
each as the amount that it spells there.  What is written for an amount is read back as it,
with or without blanks around it; that holds of the form of an amount and of the value in
the form of a transaction. -/
theorem read_eq_ok_iff_spells :
    (∀ (text : String) (amount : Nat), read text = .ok amount ↔
      ∃ bare, Text.Surrounded text.toList bare ∧ Spells bare amount) ∧
    (∀ (text : String) (amount : Nat) (bare : List Char), Written amount bare →
      Text.Surrounded text.toList bare → read text = .ok amount) ∧
    (∀ amount, ∃ text, Form.ofAmount amount = .text text ∧ Written amount text.toList) ∧
    ∀ transaction : Transaction, ∃ members text,
      Form.ofTransaction transaction = .object members ∧ (some "value", .text text) ∈ members ∧
        Written transaction.value text.toList := by
  have hread (text : String) (amount : Nat) : read text = .ok amount ↔
      ∃ bare, Text.Surrounded text.toList bare ∧ Spells bare amount := by
    rw [read_eq_ok_iff]
    constructor
    · intro h
      exact ⟨_, Text.surrounded_trim _, h⟩
    · rintro ⟨bare, hbare, h⟩
      rwa [Text.trim_eq_of_surrounded hbare h.ne_nil h.not_blank]
  refine ⟨hread, fun text amount bare hwritten hbare => ?_, fun amount => ?_,
    fun transaction => ?_⟩
  · exact (hread text amount).2 ⟨bare, hbare, hwritten.spells⟩
  · exact ⟨write amount, rfl, written_write amount⟩
  · refine ⟨_, writeHex transaction.value, rfl, ?_, written_writeHex transaction.value⟩
    exact .tail _ (.tail _ (.head _))

/-- Digits of both cases, behind a mark and between blanks. -/
theorem read_eq_ok_iff_spells_marked :
    Written 255 "0xfF".toList ∧ Text.Surrounded " 0xfF\n".toList "0xfF".toList ∧
      read " 0xfF\n" = .ok 255 := by
  have hwritten : Written 255 "0xfF".toList :=
    .hexadecimal (.inl rfl) (.cons (.inl rfl) (.cons (.inr (by decide)) .nil))
  have hsurrounded : Text.Surrounded " 0xfF\n".toList "0xfF".toList :=
    ⟨[' '], ['\n'], rfl, List.forall_mem_singleton.2 rfl, List.forall_mem_singleton.2 rfl⟩
  exact ⟨hwritten, hsurrounded, read_eq_ok_iff_spells.2.1 _ _ _ hwritten hsurrounded⟩

end Amount

end SwapCompiler
