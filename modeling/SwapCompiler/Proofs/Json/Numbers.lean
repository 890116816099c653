import SwapCompiler.Json.Token
import SwapCompiler.Json.Write
import Mathlib.Data.Nat.Digits.Defs

/-!
# Numbers in JSON texts

Every number literal that is written is the literal of the same number: an integer stays an
integer, and a decimal keeps its coefficient and its exponent.

* `digits?_append`: a run of digits is taken up to the first character that is none.
* `unsignedNumber?_append`: a literal is read part by part.
* `word?_writeNumber`: what is written for a number is a bare word with its value.
-/

namespace SwapCompiler.Json

variable {c : Char} {text rest run whole fraction : List Char} {value : Nat} {negative : Bool}

/-! ## Runs of digits -/

theorem natOfDigits_eq_ofDigitChars (text : List Char) :
    natOfDigits text = Nat.ofDigitChars 10 text 0 := by
  rw [natOfDigits, Nat.ofDigitChars_eq_foldl]
  simp only [Nat.mul_comm 10]
  rfl

theorem natOfDigits_digits (value : Nat) : natOfDigits (Decimal.digits value) = value := by
  rw [natOfDigits_eq_ofDigitChars, Decimal.digits, Nat.ofDigitChars_ten_toDigits]

/-- Zeros in front of a number do not count. -/
theorem natOfDigits_filled (zeros value : Nat) :
    natOfDigits (List.replicate zeros '0' ++ Decimal.digits value) = value := by
  rw [natOfDigits_eq_ofDigitChars, Nat.ofDigitChars_append, Nat.ofDigitChars_replicate_zero,
    Nat.mul_zero, Decimal.digits, Nat.ofDigitChars_ten_toDigits]

theorem isDigit_of_mem_digits (h : c ∈ Decimal.digits value) : c.isDigit = true :=
  Nat.isDigit_of_mem_toDigits (by decide) (by decide) h

theorem isDigit_of_mem_filled {zeros : Nat}
    (h : c ∈ List.replicate zeros '0' ++ Decimal.digits value) : c.isDigit = true := by
  rcases List.mem_append.1 h with h | h
  · rw [List.eq_of_mem_replicate h]
    rfl
  · exact isDigit_of_mem_digits h

theorem digits_ne_nil (value : Nat) : Decimal.digits value ≠ [] :=
  Nat.toDigits_ne_nil

/-- No digits are written in front of which a zero is needless. -/
theorem digits_head (value : Nat) :
    (Decimal.digits value).head? ≠ some '0' ∨ Decimal.digits value = ['0'] := by
  induction value using Nat.strong_induction_on with
  | _ value ih =>
      unfold Decimal.digits at ih ⊢
      by_cases hlt : value < 10
      · rw [Nat.toDigits_of_lt_base hlt]
        have hdigit : ∀ value < 10,
            [value.digitChar].head? ≠ some '0' ∨ [value.digitChar] = ['0'] := by decide
        exact hdigit value hlt
      · have hquotient : Nat.toDigits 10 (value / 10) ≠ ['0'] := by
          intro hzero
          have hvalue := natOfDigits_digits (value / 10)
          rw [Decimal.digits, hzero] at hvalue
          have hnone : natOfDigits ['0'] = 0 := by decide
          omega
        rw [Nat.toDigits_of_base_le (by decide) (Nat.le_of_not_lt hlt), List.head?_append,
          Option.or_of_isSome (List.isSome_head?.2 Nat.toDigits_ne_nil)]
        exact .inl ((ih (value / 10) (by omega)).resolve_right hquotient)

/-- A run of digits ends where another character comes. -/
theorem digits?_append (hne : run ≠ []) (hrun : ∀ c ∈ run, c.isDigit = true)
    (hrest : ∀ c ∈ rest.head?, c.isDigit = false) : digits? (run ++ rest) = some (run, rest) := by
  have htake : (run ++ rest).takeWhile Char.isDigit = run := by
    rw [List.takeWhile_append_of_pos hrun]
    cases rest with
    | nil => simp
    | cons c rest => simp [hrest c rfl]
  have hdrop : (run ++ rest).dropWhile Char.isDigit = rest := by
    rw [List.dropWhile_append_of_pos hrun]
    cases rest with
    | nil => simp
    | cons c rest => simp [hrest c rfl]
  unfold digits?
  rw [htake, hdrop]
  cases run with
  | nil => exact absurd rfl hne
  | cons c run => rfl

/-! ## Literals -/

/-- A literal is read as its whole part, its fraction and its exponent. -/
theorem unsignedNumber?_append {tail : List Char} {exponent : Option Int} (hne : whole ≠ [])
    (hwhole : ∀ c ∈ whole, c.isDigit = true) (hhead : whole.head? ≠ some '0' ∨ whole = ['0'])
    (hrest : ∀ c ∈ rest.head?, c.isDigit = false)
    (hfraction : fraction? rest = some (fraction, tail)) (htail : exponent? tail = some exponent) :
    unsignedNumber? negative (whole ++ rest) =
      some (numberOf negative whole fraction exponent) := by
  simp only [unsignedNumber?, digits?_append hne hwhole hrest, Option.bind_eq_bind,
    Option.bind_some, hhead, guard, if_true, hfraction, htail]
  rfl

theorem unsignedNumber?_digits (negative : Bool) (value : Nat) :
    unsignedNumber? negative (Decimal.digits value) = some (.integer negative value) := by
  have h : unsignedNumber? negative (Decimal.digits value ++ []) =
      some (numberOf negative (Decimal.digits value) [] none) :=
    unsignedNumber?_append (digits_ne_nil value) (fun _ => isDigit_of_mem_digits)
      (digits_head value) nofun rfl rfl
  rwa [List.append_nil, numberOf, natOfDigits_digits] at h

/-- A literal without places and with an exponent. -/
theorem unsignedNumber?_scaled (negative : Bool) (coefficient places : Nat) :
    unsignedNumber? negative
        (Decimal.digits coefficient ++ 'e' :: Decimal.digits places) =
      some (.scientific ⟨negative, coefficient, places⟩) := by
  have hdigits : allDigits? (Decimal.digits places) = some places := by
    rw [allDigits?, if_pos ⟨digits_ne_nil places,
      List.all_eq_true.2 fun _ => isDigit_of_mem_digits⟩, natOfDigits_digits]
  have hpower : power? (Decimal.digits places) = some (places : Int) := by
    -- digits begin with neither sign
    unfold power?
    split
    · next heq => exact absurd (isDigit_of_mem_digits (heq ▸ List.mem_cons_self)) (by decide)
    · next heq => exact absurd (isDigit_of_mem_digits (heq ▸ List.mem_cons_self)) (by decide)
    · rw [hdigits]
      rfl
  have hexponent : exponent? ('e' :: Decimal.digits places) = some (some (places : Int)) := by
    rw [exponent?, hpower, Option.map_some]
  rw [unsignedNumber?_append (digits_ne_nil coefficient) (fun _ => isDigit_of_mem_digits)
    (digits_head coefficient) (by simp) rfl hexponent, numberOf, List.append_nil,
    natOfDigits_digits]
  simp

/-- A literal with places, as many as its exponent says. -/
theorem unsignedNumber?_pointed (negative : Bool) (coefficient places : Nat) :
    unsignedNumber? negative (Decimal.pointed (places + 1) (Decimal.digits coefficient)) =
      some (.scientific ⟨negative, coefficient, .negSucc places⟩) := by
  generalize hds : Decimal.digits coefficient = ds
  generalize hfilled : List.replicate (places + 1 + 1 - ds.length) '0' ++ ds = filled
  have hpointed : Decimal.pointed (places + 1) ds =
      filled.take (filled.length - (places + 1)) ++
        '.' :: filled.drop (filled.length - (places + 1)) := by
    rw [Decimal.pointed, hfilled]
  have hlength : filled.length = (places + 1 + 1 - ds.length) + ds.length := by
    simp [← hfilled]
  have hdigit : ∀ c ∈ filled, c.isDigit = true := fun c hc =>
    isDigit_of_mem_filled (hds ▸ hfilled ▸ hc)
  generalize hwholes : filled.length - (places + 1) = wholes at hpointed
  have hpos : 0 < wholes := by omega
  have hhead : (filled.take wholes).head? ≠ some '0' ∨ filled.take wholes = ['0'] := by
    rcases Nat.lt_or_ge (places + 1) ds.length with hlong | hshort
    · -- nothing is filled in, so the digits begin as they are written
      have hds' : filled = ds := by
        rw [← hfilled, Nat.sub_eq_zero_of_le hlong, List.replicate_zero, List.nil_append]
      rw [List.head?_take, if_neg (by omega), hds']
      refine .inl ((hds ▸ digits_head coefficient).resolve_right fun hzero => ?_)
      rw [hzero, List.length_singleton] at hlong
      omega
    · have hone : wholes = 1 := by omega
      have hzeros : places + 1 + 1 - ds.length = (places + 1 - ds.length) + 1 := by omega
      rw [hone, ← hfilled, hzeros, List.replicate_succ]
      exact .inr rfl
  have hplaces : (filled.drop wholes).length = places + 1 := by
    rw [List.length_drop]
    omega
  have hne : filled.drop wholes ≠ [] := List.ne_nil_of_length_eq_add_one hplaces
  have hfraction : fraction? ('.' :: filled.drop wholes) = some (filled.drop wholes, []) := by
    have h : digits? (filled.drop wholes ++ []) = some (filled.drop wholes, []) :=
      digits?_append hne (fun c hc => hdigit c (List.mem_of_mem_drop hc)) nofun
    rwa [List.append_nil] at h
  rw [hpointed, unsignedNumber?_append
    (fun hnil => by simp [← List.length_eq_zero_iff] at hnil; omega)
    (fun c hc => hdigit c (List.mem_of_mem_take hc)) hhead (by simp) hfraction rfl,
    numberOf, if_neg (by simpa using hne), List.take_append_drop, hplaces, ← hfilled, ← hds,
    natOfDigits_filled]
  rfl

/-! ## Written numbers -/

theorem isWordChar_of_isDigit (h : c.isDigit = true) : isWordChar c = true := by
  simp [isWordChar, Char.isAlphanum, h]

/-- A number is written as its sign and the literal of the rest. -/
theorem exists_writeNumber (number : Number) :
    ∃ negative text, writeNumber number = (if negative then ['-'] else []) ++ text ∧
      unsignedNumber? negative text = some number ∧ ∀ c ∈ text, isWordChar c = true := by
  have hdigits {value : Nat} : ∀ c ∈ Decimal.digits value, isWordChar c = true :=
    fun c hc => isWordChar_of_isDigit (isDigit_of_mem_digits hc)
  match number with
  | .integer negative magnitude =>
      exact ⟨negative, _, rfl, unsignedNumber?_digits negative magnitude, hdigits⟩
  | .scientific ⟨negative, coefficient, .ofNat places⟩ =>
      refine ⟨negative, _, ?_, unsignedNumber?_scaled negative coefficient places, ?_⟩
      · simp [writeNumber]
      · exact List.forall_mem_append.2 ⟨hdigits, List.forall_mem_cons.2 ⟨by decide, hdigits⟩⟩
  | .scientific ⟨negative, coefficient, .negSucc places⟩ =>
      refine ⟨negative, _, ?_, unsignedNumber?_pointed negative coefficient places, ?_⟩
      · simp [writeNumber, Decimal.text, Decimal.magnitude]
      · intro c hc
        rcases List.mem_append.1 hc with hc | hc
        · exact isWordChar_of_isDigit (isDigit_of_mem_filled (List.mem_of_mem_take hc))
        · rcases List.mem_cons.1 hc with rfl | hc
          · decide
          · exact isWordChar_of_isDigit (isDigit_of_mem_filled (List.mem_of_mem_drop hc))

/-- A literal begins with a digit. -/
theorem exists_digit_of_unsignedNumber? {number : Number}
    (h : unsignedNumber? negative text = some number) :
    ∃ c rest, text = c :: rest ∧ c.isDigit = true := by
  cases text with
  | nil => exact nomatch h
  | cons c rest =>
      by_cases hc : c.isDigit
      · exact ⟨c, rest, rfl, hc⟩
      · simp [unsignedNumber?, digits?, hc] at h

/-- A literal is told from the other bare words, and its sign from its digits, by the first
character. -/
theorem word?_signed {number : Number} (h : unsignedNumber? negative text = some number) :
    word? ((if negative then ['-'] else []) ++ text) = some (.number number) := by
  obtain ⟨c, rest, rfl, hc⟩ := exists_digit_of_unsignedNumber? h
  have hne : ∀ letter ∈ ['n', 't', 'f', '-'], c ≠ letter := by
    rintro letter hletter rfl
    have hnone : ∀ letter ∈ ['n', 't', 'f', '-'], letter.isDigit = false := by simp
    rw [hnone c hletter] at hc
    exact nomatch hc
  simp only [List.forall_mem_cons] at hne
  obtain ⟨hn, ht, hf, hminus, -⟩ := hne
  cases negative with
  | true => simp [word?, h]
  | false => simp [word?, h, hn, ht, hf, hminus]

/-- What is written for a number is a bare word with its value. -/
theorem word?_writeNumber (number : Number) :
    word? (writeNumber number) = some (.number number) := by
  obtain ⟨negative, text, hwritten, hread, -⟩ := exists_writeNumber number
  rw [hwritten, word?_signed hread]

theorem isWordChar_writeNumber (number : Number) :
    ∀ c ∈ writeNumber number, isWordChar c = true := by
  obtain ⟨negative, text, hwritten, -, htext⟩ := exists_writeNumber number
  rw [hwritten]
  refine List.forall_mem_append.2 ⟨?_, htext⟩
  cases negative with
  | true => exact List.forall_mem_singleton.2 rfl
  | false => exact List.forall_mem_nil _

end SwapCompiler.Json
