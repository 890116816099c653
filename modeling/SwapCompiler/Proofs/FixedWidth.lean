import SwapCompiler.Proofs.Built.Offset
import Mathlib.Algebra.Group.Nat.Defs

/-!
# Numbers of a fixed width

A number is written on a given count of bytes exactly if it fits there, and then as the one
string of that many bytes that denotes it.

* `Bytes.fixed?_eq_some_iff_denotes` says so of the bytes, and `field_eq_error_iff` what is
  reported of a number that does not fit.
* `Bytes.needed` counts the bytes of a 64-bit number from its leading zero bits, and
  `Bytes.ofUInt64` cuts its eight bytes to a width, or fills them up with zeros.  Both agree
  with the bound and the digits by which a field is filled.
-/

namespace SwapCompiler

namespace Bytes

variable {width value : Nat} {bytes : Bytes}

/-- A width of so many bytes holds the numbers below this power of 256. -/
theorem capacity_eq_pow (width : Nat) : capacity width = 256 ^ width := by
  induction width with
  | zero => rfl
  | succ width ih => rw [capacity_succ, ih, Nat.pow_succ, Nat.mul_comm]

/-- The bytes of a number are the only ones of their count that denote it. -/
theorem fixed?_eq_some_iff_denotes :
    fixed? width value = some bytes ↔ bytes.length = width ∧ ofBigEndian bytes = value := by
  rw [fixed?_eq_some_iff]
  constructor
  · rintro ⟨hfits, rfl⟩
    exact ⟨length_bigEndian width value, ofBigEndian_bigEndian_of_lt hfits⟩
  · rintro ⟨hlength, rfl⟩
    exact ⟨ofBigEndian_lt hlength, (bigEndian_ofBigEndian hlength).symm⟩

theorem isSome_fixed?_iff : (fixed? width value).isSome ↔ value < 256 ^ width := by
  rw [← capacity_eq_pow]
  by_cases h : value < capacity width <;> simp [fixed?, h]

/-! ## Counting bytes from leading zeros -/

/-- How many of the eight bytes of a number are left without its leading zero bytes. -/
def needed (value : UInt64) : Nat :=
  8 - value.toBitVec.clz.toNat / 8

/-- The eight bytes of a number, without the first of them or behind zeros, so that there are
as many as the width says. -/
def ofUInt64 (width : Nat) (value : UInt64) : Bytes :=
  List.replicate (width - 8) 0 ++ (bigEndian 8 value.toNat).drop (8 - min width 8)

/-- The bytes that a number needs are counted right: a width has as many of them exactly if it
holds the number. -/
theorem needed_le_iff {value : UInt64} : needed value ≤ width ↔ value.toNat < capacity width := by
  have hpow : capacity width = 2 ^ (8 * width) := by
    rw [capacity_eq_pow, Nat.pow_mul]
  have hclz : value.toBitVec.clz.toNat ≤ 64 := BitVec.le_def.1 BitVec.clz_le
  have hcount : needed value ≤ width ↔ 64 - value.toBitVec.clz.toNat ≤ 8 * width := by
    unfold needed
    omega
  rw [hcount, hpow]
  constructor
  · intro hbits
    calc value.toNat < 2 ^ (64 - value.toBitVec.clz.toNat) := BitVec.toNat_lt_two_pow_sub_clz
      _ ≤ 2 ^ (8 * width) := Nat.pow_le_pow_right (by decide) hbits
  · intro hlt
    by_contra hbits
    have hne : value.toBitVec ≠ 0#64 := by
      intro hzero
      rw [hzero] at hbits
      exact hbits (by simp)
    have hlow : 2 ^ (64 - 1 - value.toBitVec.clz.toNat) ≤ value.toNat :=
      BitVec.two_pow_sub_clz_le_toNat_of_ne_zero (by decide) hne
    have hhigh : 2 ^ (8 * width) ≤ 2 ^ (64 - 1 - value.toBitVec.clz.toNat) :=
      Nat.pow_le_pow_right (by decide) (by omega)
    omega

/-- Cutting or filling the eight bytes of a number leaves its bytes on that width. -/
theorem ofUInt64_eq_bigEndian (width : Nat) (value : UInt64) :
    ofUInt64 width value = bigEndian width value.toNat := by
  rcases Nat.le_total width 8 with hle | hge
  · have hsplit : 8 = (8 - width) + width := by omega
    have hcut : bigEndian 8 value.toNat =
        bigEndian (8 - width) (value.toNat / capacity width) ++ bigEndian width value.toNat := by
      rw [← bigEndian_add, ← hsplit]
    rw [ofUInt64, Nat.sub_eq_zero_of_le hle, Nat.min_eq_left hle, hcut]
    simp
  · have hsplit : width = (width - 8) + 8 := by omega
    have height : value.toNat < capacity 8 := value.toNat_lt
    rw [ofUInt64, Nat.min_eq_right hge, Nat.sub_self, List.drop_zero,
      ← bigEndian_add_of_lt (width - 8) height, ← hsplit]

/-- A 64-bit number goes into a field exactly if its counted bytes do, and then cut or
filled. -/
theorem fixed?_toNat (width : Nat) (value : UInt64) :
    fixed? width value.toNat =
      if needed value ≤ width then some (ofUInt64 width value) else none := by
  by_cases h : value.toNat < capacity width
  · rw [fixed?, if_pos h, if_pos (needed_le_iff.2 h), ofUInt64_eq_bigEndian]
  · rw [fixed?, if_neg h, if_neg (fun hneeded => h (needed_le_iff.1 hneeded))]

end Bytes

/-! ## Fields and words -/

theorem field_eq_ok_iff_denotes {name : String} {width value : Nat} {bytes : Bytes} :
    field name width value = .ok bytes ↔
      bytes.length = width ∧ Bytes.ofBigEndian bytes = value := by
  rw [← Bytes.fixed?_eq_some_iff_denotes]
  cases h : Bytes.fixed? width value <;> simp [field, h]

theorem amountWord_eq_ok_iff_denotes {amount : Nat} {word : Bytes} :
    amountWord amount = .ok word ↔ word.length = 32 ∧ Bytes.ofBigEndian word = amount := by
  rw [← Bytes.fixed?_eq_some_iff_denotes]
  cases h : Bytes.fixed? 32 amount <;> simp [amountWord, h]

theorem field_eq_error_iff {name : String} {width value : Nat} {fault : Fault} :
    field name width value = .error fault ↔
      256 ^ width ≤ value ∧ fault = .fieldTooWide name value width := by
  rw [← Nat.not_lt, ← Bytes.isSome_fixed?_iff]
  cases h : Bytes.fixed? width value <;> simp [field, h, eq_comm]

/-- A field takes exactly the numbers that its width can hold, and holds the only bytes of that
count that denote the number; any other number is a structural fault.  For a 64-bit number this
is what counting its leading zeros and cutting or filling its eight bytes comes to.  The word of
an amount is there exactly if the amount is below `2 ^ 256`; it is the only word that denotes
the amount, so different amounts have different words. -/
theorem fixedWidth_exact :
    (∀ (name : String) (width value : Nat),
      ((∃ bytes, field name width value = .ok bytes) ↔ value < 256 ^ width) ∧
      (∀ bytes, field name width value = .ok bytes ↔
        bytes.length = width ∧ Bytes.ofBigEndian bytes = value) ∧
      ∀ fault, field name width value = .error fault ↔
        256 ^ width ≤ value ∧ fault = .fieldTooWide name value width ∧
          fault.kind = .structural) ∧
    (∀ (name : String) (width : Nat) (value : UInt64), field name width value.toNat =
      if Bytes.needed value ≤ width then .ok (Bytes.ofUInt64 width value)
      else .error (.fieldTooWide name value.toNat width)) ∧
    (∀ amount,
      ((∃ word, amountWord amount = .ok word) ↔ amount < 2 ^ 256) ∧
      ∀ word, amountWord amount = .ok word ↔
        word.length = 32 ∧ Bytes.ofBigEndian word = amount) ∧
    ∀ first second word, amountWord first = .ok word → amountWord second = .ok word →
      first = second := by
  refine ⟨fun name width value => ⟨?_, fun bytes => field_eq_ok_iff_denotes, fun fault => ?_⟩,
    fun name width value => ?_, fun amount => ⟨?_, fun word => amountWord_eq_ok_iff_denotes⟩, ?_⟩
  · simp only [field_eq_ok_iff, Bytes.capacity_eq_pow, exists_and_left, exists_eq, and_true]
  · rw [field_eq_error_iff]
    constructor
    · rintro ⟨hwide, rfl⟩
      exact ⟨hwide, rfl, rfl⟩
    · rintro ⟨hwide, hfault, -⟩
      exact ⟨hwide, hfault⟩
  · rw [field, Bytes.fixed?_toNat]
    by_cases hneeded : Bytes.needed value ≤ width
    · rw [if_pos hneeded, if_pos hneeded]
    · rw [if_neg hneeded, if_neg hneeded]
  · have hpow : Bytes.capacity 32 = 2 ^ 256 := by decide
    simp only [amountWord_eq_ok_iff, hpow, exists_and_left, exists_eq, and_true]
  · intro first second word hfirst hsecond
    rw [← (amountWord_eq_ok_iff_denotes.1 hfirst).2, (amountWord_eq_ok_iff_denotes.1 hsecond).2]

/-- The widest word, which no other amount has. -/
theorem fixedWidth_exact_widest :
    amountWord (2 ^ 256 - 1) = .ok (List.replicate 32 255) ∧
      ∀ other, amountWord other = .ok (List.replicate 32 255) → 2 ^ 256 - 1 = other := by
  have hword : amountWord (2 ^ 256 - 1) = .ok (List.replicate 32 255) := by
    decide +kernel
  exact ⟨hword, fun other hother => fixedWidth_exact.2.2.2 _ other _ hword hother⟩

end SwapCompiler
