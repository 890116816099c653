import SwapCompiler.Bytes.BigEndian

/-!
# The first occurrence of a pattern

Call bodies come from exchange adapters as opaque bytes.  The places that are
patched at run time are found by searching a body for the literal that the
adapter wrote there; the occurrence that starts earliest is the one patched.

* `OccursAt pattern index text` says what an occurrence is.
* `firstIndex? pattern text` is the least such index; the empty pattern has
  none.
-/

namespace SwapCompiler.Bytes

/-- The pattern stands in the text, starting at the index. -/
def OccursAt (pattern : Bytes) (index : Nat) (text : Bytes) : Prop :=
  pattern <+: text.drop index

instance (pattern : Bytes) (index : Nat) (text : Bytes) :
    Decidable (OccursAt pattern index text) :=
  inferInstanceAs (Decidable (pattern <+: text.drop index))

/-- Walks along the text, counting upwards from the given index. -/
def firstIndexFrom (pattern : Bytes) : Nat → Bytes → Option Nat
  | _, [] => none
  | index, byte :: rest =>
      if pattern.isPrefixOf (byte :: rest) then some index
      else firstIndexFrom pattern (index + 1) rest

/-- The least index at which a nonempty pattern occurs. -/
def firstIndex? (pattern text : Bytes) : Option Nat :=
  if pattern.isEmpty then none else firstIndexFrom pattern 0 text

@[simp] theorem firstIndex?_nil (text : Bytes) : firstIndex? [] text = none := rfl

/-- Starting the count higher only shifts the answer. -/
theorem firstIndexFrom_eq_map (pattern : Bytes) (start : Nat) (text : Bytes) :
    firstIndexFrom pattern start text =
      (firstIndexFrom pattern 0 text).map (start + ·) := by
  induction text generalizing start with
  | nil => rfl
  | cons byte rest ih =>
      by_cases h : pattern.isPrefixOf (byte :: rest)
      · simp [firstIndexFrom, h]
      · simp only [firstIndexFrom, h, Bool.false_eq_true, if_false]
        rw [ih (start + 1), ih (0 + 1), Option.map_map]
        congr 1
        funext index
        simp [Nat.add_assoc]

end SwapCompiler.Bytes
