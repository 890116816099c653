import Mathlib.Algebra.Group.Nat.Defs
import Mathlib.Order.Compare

/-!
# The order of doubles

A comparison of doubles fails for every comparison with the value that is no number.  For
other doubles the order is total, so that a refused comparison is the opposite one:
`Double.not_le_iff_lt`.

No sum or difference of a number and a finite double is that value, which is what
`Double.isNaN_add` and `Double.isNaN_sub` say; it only arises from infinities.
-/

namespace SwapCompiler.Double

open Float.Model
open Float.Model.UnpackedFloat (Sign packComponents)

variable {x y : Float}

/-! ## Comparison -/

/-- Two finite magnitudes are compared by their exponents and then by their mantissas. -/
theorem swap_compare_magnitudes (m₁ m₂ : Nat) (e₁ e₂ : Int) :
    ((compare e₁ e₂).then (compare m₁ m₂)).swap = (compare e₂ e₁).then (compare m₂ m₁) := by
  rw [Ordering.swap_then, Int.compare_swap, Nat.compare_swap]

theorem compare_swap (a b : UnpackedFloat) : (a.compare b).map Ordering.swap = b.compare a := by
  rcases a with (_ | _) | _ | (_ | _) | ⟨_ | _, m₁, e₁, _⟩ <;>
    rcases b with (_ | _) | _ | (_ | _) | ⟨_ | _, m₂, e₂, _⟩ <;>
      first
        | rfl
        | exact congrArg some (swap_compare_magnitudes m₁ m₂ e₁ e₂)
        | exact congrArg (some ∘ Ordering.swap) (swap_compare_magnitudes m₁ m₂ e₁ e₂)

/-- Numbers can be compared. -/
theorem exists_compare {a b : UnpackedFloat} (ha : a.isNaN = false) (hb : b.isNaN = false) :
    ∃ order, a.compare b = some order := by
  rw [← Option.isSome_iff_exists]
  rcases a with (_ | _) | _ | (_ | _) | ⟨_ | _, _, _, _⟩ <;>
    rcases b with (_ | _) | _ | (_ | _) | ⟨_ | _, _, _, _⟩ <;> first | rfl | contradiction

theorem le_iff : x ≤ y ↔ (x.toModel.unpack.compare y.toModel.unpack).any (·.isLE) = true :=
  decide_eq_true_iff

theorem lt_iff : x < y ↔ (x.toModel.unpack.compare y.toModel.unpack == some .lt) = true :=
  decide_eq_true_iff

/-- Of two numbers, either the first is at most the second, or it is larger. -/
theorem not_le_iff_lt (hx : x.isNaN = false) (hy : y.isNaN = false) : ¬ x ≤ y ↔ y < x := by
  obtain ⟨order, horder⟩ := exists_compare hx hy
  have hswap := compare_swap x.toModel.unpack y.toModel.unpack
  rw [horder, Option.map_some] at hswap
  rw [le_iff, lt_iff, horder, ← hswap]
  cases order <;> decide

theorem not_lt_iff_le (hx : x.isNaN = false) (hy : y.isNaN = false) : ¬ x < y ↔ y ≤ x := by
  rw [← not_le_iff_lt hy hx, not_not]

/-! ## What is a number -/

theorem isNaN_of_isFinite (h : x.isFinite = true) : x.isNaN = false := by
  show x.toModel.unpack.isNaN = false
  have h : x.toModel.unpack.isFinite = true := h
  cases hx : x.toModel.unpack with
  | notANumber => rw [hx] at h; exact nomatch h
  | infinity | zero | finite => rfl

theorem isNaN_dite {c : Prop} [Decidable c] {a : c → UnpackedFloat} {b : ¬ c → UnpackedFloat}
    (ha : ∀ h, (a h).isNaN = false) (hb : ∀ h, (b h).isNaN = false) :
    (dite c a b).isNaN = false := by
  by_cases h : c
  · rw [dif_pos h]
    exact ha h
  · rw [dif_neg h]
    exact hb h

theorem isNaN_ite {c : Prop} [Decidable c] {a b : UnpackedFloat} (ha : c → a.isNaN = false)
    (hb : ¬ c → b.isNaN = false) : (if c then a else b).isNaN = false :=
  isNaN_dite ha hb

/-- Fields that are not the pattern for no number are not read as such. -/
theorem isNaN_unpack_packComponents {spec : Format} {sign : Sign}
    {exponent : BitVec spec.exponentBits} {mantissa : BitVec spec.mantissaBitsWithoutImplicit}
    (h : exponent = -1#_ → mantissa = 0#_) :
    (UnpackedFloat.unpack spec (packComponents spec sign exponent mantissa)).isNaN = false := by
  unfold UnpackedFloat.unpack
  refine isNaN_ite (fun hall => ?_) fun _ => isNaN_ite (fun _ => ?_) fun _ => rfl
  · rw [UnpackedFloat.unpackExponent_packComponents] at hall
    rw [UnpackedFloat.unpackMantissa_packComponents, if_pos (h hall)]
    rfl
  · exact isNaN_dite (fun _ => rfl) fun _ => rfl

/-- An exponent field that is not too large has a zero among its bits. -/
theorem ofNat_ne_allOnes {width value : Nat} (h : ¬ 2 ^ width ≤ value + 1) :
    BitVec.ofNat width value ≠ -1#_ := by
  intro hall
  have hvalue := congrArg BitVec.toNat hall
  rw [BitVec.neg_one_eq_allOnes, BitVec.toNat_allOnes, BitVec.toNat_ofNat,
    Nat.mod_eq_of_lt (by omega)] at hvalue
  omega

/-- A number is read back as a number. -/
theorem isNaN_unpack_pack {spec : Format} {a : UnpackedFloat} (ha : a.isNaN = false) :
    (UnpackedFloat.unpack spec (UnpackedFloat.pack spec a)).isNaN = false := by
  have hzero : (0#_ : BitVec spec.exponentBits) ≠ -1#_ := by
    refine ofNat_ne_allOnes ?_
    have hbits := spec.he
    have hwide : 2 ^ 1 ≤ 2 ^ spec.exponentBits := Nat.pow_le_pow_right Nat.two_pos hbits
    omega
  cases a with
  | notANumber => exact nomatch ha
  | infinity sign => exact isNaN_unpack_packComponents fun _ => rfl
  | zero sign => exact isNaN_unpack_packComponents fun _ => rfl
  | finite sign mantissa exponent hpos =>
      unfold UnpackedFloat.pack
      dsimp only
      split
      · exact isNaN_unpack_packComponents fun _ => rfl
      · next hfits =>
          split
          · exact isNaN_unpack_packComponents fun hall => absurd hall (ofNat_ne_allOnes hfits)
          · exact isNaN_unpack_packComponents fun hall => absurd hall hzero

/-! ## Sums and differences -/

theorem isNaN_round (spec : Format) (sign : Sign) (mantissa : Nat) (exponent : Int) :
    (UnpackedFloat.round spec sign mantissa exponent).isNaN = false := by
  unfold UnpackedFloat.round UnpackedFloat.roundWithAccuracy
  exact isNaN_dite (fun _ => rfl) fun _ => rfl

theorem isNaN_normalize (spec : Format) (mantissa exponent : Int) (sign : Sign) :
    (UnpackedFloat.normalize spec mantissa exponent sign).isNaN = false := by
  unfold UnpackedFloat.normalize
  split
  · exact isNaN_round _ _ _ _
  · rfl
  · exact isNaN_round _ _ _ _

/-- A sum with a finite double is a number. -/
theorem isNaN_add (hx : x.isNaN = false) (hy : y.isFinite = true) : (x + y).isNaN = false := by
  refine isNaN_unpack_pack (a := .add .binary64 x.toModel.unpack y.toModel.unpack) ?_
  have hx : x.toModel.unpack.isNaN = false := hx
  have hy : y.toModel.unpack.isFinite = true := hy
  generalize x.toModel.unpack = a at hx
  generalize y.toModel.unpack = b at hy
  cases a <;> cases b <;>
    first
      | contradiction
      | rfl
      | exact isNaN_ite (fun _ => rfl) fun _ => rfl
      | exact isNaN_normalize _ _ _ _

/-- A difference with a finite double is a number. -/
theorem isNaN_sub (hx : x.isNaN = false) (hy : y.isFinite = true) : (x - y).isNaN = false := by
  refine isNaN_unpack_pack (a := .sub .binary64 x.toModel.unpack y.toModel.unpack) ?_
  have hx : x.toModel.unpack.isNaN = false := hx
  have hy : y.toModel.unpack.isFinite = true := hy
  generalize x.toModel.unpack = a at hx
  generalize y.toModel.unpack = b at hy
  cases a <;> cases b <;>
    first
      | contradiction
      | rfl
      | exact isNaN_ite (fun _ => rfl) fun _ => rfl
      | exact isNaN_normalize _ _ _ _

theorem isNaN_abs (hx : x.isNaN = false) : x.abs.isNaN = false := by
  refine isNaN_unpack_pack (a := x.toModel.unpack.abs) ?_
  have hx : x.toModel.unpack.isNaN = false := hx
  generalize x.toModel.unpack = a at hx
  cases a with
  | notANumber => exact nomatch hx
  | infinity | zero | finite => rfl

end SwapCompiler.Double
