import SwapCompiler.Bytes.Search
import SwapCompiler.Fault

/-!
# Words, fields and mandatory patterns

The three checks that building code keeps making, each with its cause: an
amount fits in a word, a number fits in its field, a literal is where it must
be found.
-/

namespace SwapCompiler

/-- The word of an amount, which must fit in 32 bytes. -/
def amountWord (amount : Nat) : Except Fault Bytes :=
  match Bytes.fixed? 32 amount with
  | some word => .ok word
  | none => .error (.amountTooWide amount)

/-- The word of an amount that a call builder takes as an argument. -/
def argumentWord (amount : Nat) : Except Fault Bytes :=
  match Bytes.fixed? 32 amount with
  | some word => .ok word
  | none => .error (.argumentTooWide amount)

/-- A number on the bytes of a named field. -/
def field (name : String) (width value : Nat) : Except Fault Bytes :=
  match Bytes.fixed? width value with
  | some bytes => .ok bytes
  | none => .error (.fieldTooWide name value width)

/-- The first occurrence of a pattern that must occur. -/
def locate (what : String) (pattern text : Bytes) : Except Fault Nat :=
  match Bytes.firstIndex? pattern text with
  | some index => .ok index
  | none => .error (.patternAbsent what pattern text.length none)

theorem field_eq_ok_iff {name : String} {width value : Nat} {bytes : Bytes} :
    field name width value = .ok bytes ↔
      value < Bytes.capacity width ∧ bytes = Bytes.bigEndian width value := by
  rw [← Bytes.fixed?_eq_some_iff]
  cases h : Bytes.fixed? width value <;> simp [field, h]

theorem locate_eq_ok_iff {what : String} {pattern text : Bytes} {index : Nat} :
    locate what pattern text = .ok index ↔ Bytes.firstIndex? pattern text = some index := by
  cases h : Bytes.firstIndex? pattern text <;> simp [locate, h]

end SwapCompiler
