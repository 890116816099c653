/-!
# Big-endian numbers

Every length, offset, amount and share of the wire format is a number written
on a fixed count of bytes, most significant byte first.

* `capacity width` counts the numbers that `width` bytes can hold.
* `bigEndian width value` always has `width` bytes; it keeps `value` exactly
  when `value < capacity width`, and drops high bytes otherwise.
* `bigEndian_add` splits the bytes of a number.
* `ofBigEndian` reads any byte string as a number and undoes `bigEndian`;
  `bigEndian`, on as many bytes, undoes `ofBigEndian`.
* `fixed? width value` is `bigEndian` with the bound checked first.
-/

namespace SwapCompiler

/-- A finite string of bytes. -/
abbrev Bytes := List UInt8

namespace Bytes

/-- How many numbers a field of so many bytes can hold. -/
def capacity : Nat → Nat
  | 0 => 1
  | width + 1 => 256 * capacity width

/-- The low `width` bytes of a number, most significant first. -/
def bigEndian : Nat → Nat → Bytes
  | 0, _ => []
  | width + 1, value => bigEndian width (value / 256) ++ [UInt8.ofNat value]

/-- The number that a byte string denotes, most significant byte first. -/
def ofBigEndian (bytes : Bytes) : Nat :=
  bytes.foldl (fun value byte => value * 256 + byte.toNat) 0

/-- A number on exactly `width` bytes, if it fits there. -/
def fixed? (width value : Nat) : Option Bytes :=
  if value < capacity width then some (bigEndian width value) else none

/-- A number as one 32-byte word of the call format. -/
def word (value : Nat) : Bytes :=
  bigEndian 32 value

theorem capacity_succ (width : Nat) : capacity (width + 1) = 256 * capacity width := rfl

theorem bigEndian_succ (width value : Nat) :
    bigEndian (width + 1) value = bigEndian width (value / 256) ++ [UInt8.ofNat value] := rfl

@[simp] theorem length_bigEndian (width value : Nat) :
    (bigEndian width value).length = width := by
  induction width generalizing value with
  | zero => rfl
  | succ width ih => simp [bigEndian_succ, ih]

@[simp] theorem length_word (value : Nat) : (word value).length = 32 :=
  length_bigEndian 32 value

@[simp] theorem ofBigEndian_nil : ofBigEndian [] = 0 := rfl

@[simp] theorem ofBigEndian_concat (bytes : Bytes) (byte : UInt8) :
    ofBigEndian (bytes ++ [byte]) = ofBigEndian bytes * 256 + byte.toNat := by
  simp [ofBigEndian]

/-- Reading a written number gives it back modulo the field's capacity. -/
theorem ofBigEndian_bigEndian (width value : Nat) :
    ofBigEndian (bigEndian width value) = value % capacity width := by
  induction width generalizing value with
  | zero => exact (Nat.mod_one value).symm
  | succ width ih =>
      rw [bigEndian_succ, ofBigEndian_concat, ih, capacity_succ, Nat.mod_mul]
      have hbyte : (UInt8.ofNat value).toNat = value % 256 := by simp
      rw [hbyte]
      omega

/-- A number below the field's capacity survives the field. -/
theorem ofBigEndian_bigEndian_of_lt {width value : Nat} (h : value < capacity width) :
    ofBigEndian (bigEndian width value) = value := by
  rw [ofBigEndian_bigEndian, Nat.mod_eq_of_lt h]

/-- Every byte string is the number that it denotes, on as many bytes. -/
theorem bigEndian_ofBigEndian {width : Nat} {bytes : Bytes} (h : bytes.length = width) :
    bigEndian width (ofBigEndian bytes) = bytes := by
  induction width generalizing bytes with
  | zero =>
      rw [List.eq_nil_of_length_eq_zero h]
      rfl
  | succ width ih =>
      rcases List.eq_nil_or_concat bytes with rfl | ⟨front, byte, rfl⟩
      · simp at h
      · rw [List.concat_eq_append] at h ⊢
        have hfront : front.length = width := by simpa using h
        have hbyte := byte.toNat_lt
        have hquotient : (ofBigEndian front * 256 + byte.toNat) / 256 = ofBigEndian front := by
          omega
        have hlow : UInt8.ofNat (ofBigEndian front * 256 + byte.toNat) = byte := by
          apply UInt8.toNat_inj.1
          rw [UInt8.toNat_ofNat']
          omega
        rw [ofBigEndian_concat, bigEndian_succ, hquotient, hlow, ih hfront]

/-- A byte string denotes a number that as many bytes can hold. -/
theorem ofBigEndian_lt {width : Nat} {bytes : Bytes} (h : bytes.length = width) :
    ofBigEndian bytes < capacity width := by
  induction width generalizing bytes with
  | zero =>
      rw [List.eq_nil_of_length_eq_zero h]
      exact Nat.one_pos
  | succ width ih =>
      rcases List.eq_nil_or_concat bytes with rfl | ⟨front, byte, rfl⟩
      · simp at h
      · rw [List.concat_eq_append] at h ⊢
        have hfront : ofBigEndian front < capacity width := ih (by simpa using h)
        have hbyte := byte.toNat_lt
        rw [ofBigEndian_concat, capacity_succ]
        omega

/-- The last bytes of a number are the number on these, and the first bytes are its
quotient. -/
theorem bigEndian_add (high low value : Nat) :
    bigEndian (high + low) value = bigEndian high (value / capacity low) ++ bigEndian low value := by
  induction low generalizing value with
  | zero =>
      show bigEndian high value = bigEndian high (value / 1) ++ []
      rw [Nat.div_one, List.append_nil]
  | succ low ih =>
      rw [← Nat.add_assoc, bigEndian_succ, ih, bigEndian_succ, capacity_succ,
        Nat.div_div_eq_div_mul, List.append_assoc]

@[simp] theorem bigEndian_zero (width : Nat) : bigEndian width 0 = List.replicate width 0 := by
  induction width with
  | zero => rfl
  | succ width ih =>
      rw [bigEndian_succ, Nat.zero_div, ih, List.replicate_succ']
      rfl

/-- A number that fits on the last bytes has zeros in front of these. -/
theorem bigEndian_add_of_lt (high : Nat) {low value : Nat} (h : value < capacity low) :
    bigEndian (high + low) value = List.replicate high 0 ++ bigEndian low value := by
  rw [bigEndian_add, Nat.div_eq_of_lt h, bigEndian_zero]

/-- The word of a number that fits on the last bytes begins with zeros. -/
theorem getElem?_word_of_lt {high low value : Nat} (hsplit : high + low = 32)
    (h : value < capacity low) {place : Nat} (hplace : place < high) :
    (word value)[place]? = some 0 := by
  rw [word, ← hsplit, bigEndian_add_of_lt high h, List.getElem?_append_left (by simpa using hplace)]
  simp [hplace]

/-- A number that fits in a word is determined by it. -/
theorem word_eq_iff {value : Nat} {bytes : Bytes} (hfits : value < capacity 32)
    (hlength : bytes.length = 32) : word value = bytes ↔ value = ofBigEndian bytes := by
  constructor
  · intro h
    rw [← h]
    exact (ofBigEndian_bigEndian_of_lt hfits).symm
  · intro h
    rw [h]
    exact bigEndian_ofBigEndian hlength

theorem fixed?_eq_some_iff {width value : Nat} {bytes : Bytes} :
    fixed? width value = some bytes ↔
      value < capacity width ∧ bytes = bigEndian width value := by
  by_cases h : value < capacity width <;> simp [fixed?, h, eq_comm]

end Bytes

end SwapCompiler
