import ScriptBridge.Proofs.Binary
import Mathlib.Algebra.Field.Rat
import Mathlib.Algebra.Order.Field.Power
import Mathlib.Tactic.FieldSimp
import Mathlib.Tactic.Ring

/-!
# Exact values of floating-point numbers

What a number is can be read off its fields by one formula over the rationals, which knows nothing
of mantissas as natural numbers or of rounding. The magnitude of a number, the integer that it is
and the conversion to a wider format are checked against it.

- `Binary.value?`: the value of a finite number.
- `Binary.value?_of_finite`: it is the mantissa at its exponent, with the sign.
- `Binary.integral?_eq_some_iff`: a number is an integer exactly when its value is.
- `Binary.value?_widen`: widening keeps the value.
-/

namespace ScriptBridge

namespace Format

/-- What the exponent field of a format is above the exponent. -/
def bias (f : Format) : Int := pow2 (f.exponentBits - 1) - 1

theorem leastExponent_eq (f : Format) : f.leastExponent = 1 - f.bias - f.fractionBits := by
  simp only [leastExponent, bias]
  omega

end Format

namespace Binary

variable {f : Format} {x : Binary f}

/-- The significand: the fraction, after a one in all numbers but the subnormal ones. -/
def significand (x : Binary f) : ℚ :=
  (if x.exponent.val = 0 then 0 else 1) + x.fraction.val / f.fractions

/-- The value of a finite number. Subnormal numbers have the exponent of the least normal ones. -/
def value? (x : Binary f) : Option ℚ :=
  if x.exponent.val = f.topExponent then none
  else some ((-1) ^ x.negative.toNat * x.significand * 2 ^ (max (x.exponent.val : ℤ) 1 - f.bias))

theorem cast_pow2 (n : Nat) : (pow2 n : ℚ) = 2 ^ n := Nat.cast_pow 2 n

theorem cast_fractions (f : Format) : (f.fractions : ℚ) = 2 ^ (f.fractionBits : ℤ) := by
  rw [zpow_natCast, Format.fractions, cast_pow2]

theorem cast_signed (negative : Bool) (n : Nat) :
    ((signed negative n : Int) : ℚ) = (-1) ^ negative.toNat * n := by
  cases negative <;> simp [signed]

/-- The significand is a natural number of units in the last place. -/
theorem significand_mul (x : Binary f) (k : ℤ) :
    x.significand * 2 ^ k =
      (((if x.exponent.val = 0 then 0 else f.fractions) + x.fraction.val : Nat) : ℚ) *
        2 ^ (k - f.fractionBits) := by
  have hpos : (2 : ℚ) ^ (f.fractionBits : ℤ) ≠ 0 := zpow_ne_zero _ two_ne_zero
  rw [significand, zpow_sub₀ two_ne_zero, cast_fractions]
  split
  · rw [zero_add, zero_add]
    field_simp
  · rw [Nat.cast_add, cast_fractions]
    field_simp

/-- The value is the mantissa at its exponent, with the sign. -/
theorem value?_of_finite {mantissa : Nat} {exponent : Int}
    (hx : x.magnitude = .finite mantissa exponent) :
    x.value? = some ((-1 : ℚ) ^ x.negative.toNat * mantissa * 2 ^ exponent) := by
  rw [magnitude, Format.leastExponent_eq] at hx
  split at hx
  · split at hx <;> cases hx
  · next hfinite =>
    rw [value?, if_neg hfinite, mul_assoc, significand_mul, mul_assoc]
    split at hx
    · next hsubnormal =>
      obtain ⟨rfl, rfl⟩ := Magnitude.finite.inj hx
      simp [hsubnormal]
    · next hnormal =>
      obtain ⟨rfl, rfl⟩ := Magnitude.finite.inj hx
      have hexponent : max (x.exponent.val : ℤ) 1 - f.bias - f.fractionBits =
          1 - f.bias - f.fractionBits + (x.exponent.val - 1 : Nat) := by omega
      rw [if_neg hnormal, hexponent]

/-- Infinities and NaNs have no value. -/
theorem value?_of_not_finite (hx : ∀ mantissa exponent, x.magnitude ≠ .finite mantissa exponent) :
    x.value? = none := by
  by_cases htop : x.exponent.val = f.topExponent
  · rw [value?, if_pos htop]
  · simp only [magnitude, if_neg htop] at hx
    split at hx
    · exact absurd rfl (hx _ _)
    · exact absurd rfl (hx _ _)

/-- A quotient with a sign is an integer when there is no remainder. -/
theorem signed_eq_mul_iff {negative : Bool} {m d : Nat} {n : Int} (hd : 0 < d) :
    signed negative m = n * d ↔ m % d = 0 ∧ signed negative (m / d) = n := by
  have hpos : (d : Int) ≠ 0 := by omega
  constructor
  · intro h
    have hdvd : d ∣ m := by
      refine Int.natCast_dvd_natCast.mp ?_
      cases negative with
      | false => exact ⟨n, h.trans (mul_comm n d)⟩
      | true => exact (Int.dvd_neg).mp ⟨n, h.trans (mul_comm n d)⟩
    obtain ⟨k, rfl⟩ := hdvd
    rw [Nat.mul_mod_right, Nat.mul_div_cancel_left k hd]
    refine ⟨rfl, mul_right_cancel₀ hpos (h ▸ ?_)⟩
    cases negative <;> simp [signed, mul_comm]
  · rintro ⟨hrest, rfl⟩
    obtain ⟨k, rfl⟩ := Nat.dvd_of_mod_eq_zero hrest
    rw [Nat.mul_div_cancel_left k hd]
    cases negative <;> simp [signed, mul_comm]

/-- A number is an integer exactly when its value is. -/
theorem integral?_eq_some_iff {n : Int} : x.integral? = some n ↔ x.value? = some (n : ℚ) := by
  cases hx : x.magnitude with
  | nan | infinite => simp [integral?, hx, value?_of_not_finite]
  | finite mantissa exponent =>
    rw [value?_of_finite hx, Option.some.injEq]
    cases exponent with
    | ofNat e =>
      have hvalue : (-1 : ℚ) ^ x.negative.toNat * mantissa * 2 ^ Int.ofNat e =
          (signed x.negative (mantissa * pow2 e) : Int) := by
        rw [cast_signed, Nat.cast_mul, cast_pow2, mul_assoc]
        rfl
      simp only [integral?, hx, Option.some.injEq, hvalue, Int.cast_inj]
    | negSucc e =>
      have hvalue : (-1 : ℚ) ^ x.negative.toNat * mantissa * 2 ^ Int.negSucc e = n ↔
          signed x.negative mantissa = n * pow2 (e + 1) := by
        rw [← Int.cast_inj (α := ℚ), cast_signed, Int.cast_mul, Int.cast_natCast, cast_pow2,
          zpow_negSucc, ← div_eq_mul_inv, div_eq_iff (pow_ne_zero _ two_ne_zero)]
      rw [hvalue, signed_eq_mul_iff (pow2_pos _)]
      simp only [integral?, hx]
      split <;> simp_all

/-- Both zeros are the integer zero, and the least number above them is none. -/
example :
    integral? (ofBits .double 0) = some 0 ∧ integral? (ofBits .double (2 ^ 63)) = some 0 ∧
      integral? (ofBits .double 1) = none := by
  decide +kernel

/-- Widening keeps the value. -/
theorem value?_widen (x : Binary32) : x.widen.value? = x.value? := by
  cases hx : x.magnitude with
  | nan =>
    have hwide : x.widen.magnitude = .nan := by
      rw [widen, convert, hx]
      rfl
    rw [value?_of_not_finite (x := x) (by simp [hx]), value?_of_not_finite (by simp [hwide])]
  | infinite =>
    have hwide := (magnitude_widen_of_infinite hx).2
    rw [value?_of_not_finite (x := x) (by simp [hx]), value?_of_not_finite (by simp [hwide])]
  | finite mantissa exponent =>
    obtain ⟨scale, hsign, hwide⟩ := magnitude_widen hx
    have hscale : ((mantissa * pow2 scale : Nat) : ℚ) * 2 ^ (exponent - scale) =
        mantissa * 2 ^ exponent := by
      rw [Nat.cast_mul, cast_pow2, zpow_sub₀ two_ne_zero, zpow_natCast]
      field_simp
    rw [value?_of_finite hx, value?_of_finite hwide, hsign, mul_assoc, hscale, mul_assoc]

end Binary

end ScriptBridge
