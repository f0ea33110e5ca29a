import ScriptBridge.Binary

/-!
# Exact conversions between formats

A number that a format can hold exactly is not changed by rounding to that format, however its
mantissa and exponent are scaled. So the 64-bit number of a 32-bit number can be narrowed again, and
the 32-bit number comes back bit for bit. NaNs are the exception: only one of them comes back.

- `Binary.roundShift_mul_pow2`, `Binary.bitLength_mul_pow2`: scaling a mantissa.
- `Binary.round_scaled`: rounding what fits a format, in any scale.
- `Binary.round_magnitude`: a number of a format is what its own magnitude rounds to.
- `Binary.magnitude_round`: what fits the normal range of a format keeps its magnitude there.
- `Binary.magnitude_widen`: widening keeps the magnitude of a finite number.
- `Binary.narrow_widen`: narrowing undoes widening.
- `Binary.quiet`: the number that comes back.
-/

namespace ScriptBridge

theorem pow2_add (m n : Nat) : pow2 (m + n) = pow2 m * pow2 n := Nat.pow_add 2 m n

theorem Format.fractions_pos (f : Format) : 0 < f.fractions := pow2_pos _

namespace Binary

/-! ## Scaling a mantissa -/

/-- Without a remainder there is nothing to round. -/
theorem roundShift_mul_pow2 (n k : Nat) : roundShift (n * pow2 k) k = n := by
  have hpos := pow2_pos k
  simp [roundShift, Nat.mul_div_cancel _ hpos, hpos]

/-- A number between two powers of two has as many digits as the lower one. -/
theorem bitLength_of_bounds {n k : Nat} (hlow : pow2 k ≤ n) (hhigh : n < pow2 (k + 1)) :
    bitLength n = k + 1 := by
  have hn : n ≠ 0 := Nat.ne_of_gt (Nat.lt_of_lt_of_le (pow2_pos k) hlow)
  rw [bitLength, if_neg hn, (Nat.log2_eq_iff hn).mpr ⟨hlow, hhigh⟩]

/-- The power of two with as many digits is at most the number. -/
theorem pow2_le_of_bitLength {n k : Nat} (h : bitLength n = k + 1) : pow2 k ≤ n := by
  by_cases hn : n = 0
  · simp [bitLength, hn] at h
  · rw [bitLength, if_neg hn, Nat.add_right_cancel_iff] at h
    exact h ▸ Nat.log2_self_le hn

theorem lt_pow2_bitLength (n : Nat) : n < pow2 (bitLength n) := by
  by_cases hn : n = 0
  · simp [hn, pow2_pos]
  · rw [bitLength, if_neg hn]
    exact Nat.lt_log2_self

theorem bitLength_pos {n : Nat} (hn : 0 < n) : 0 < bitLength n := by
  rw [bitLength, if_neg (Nat.ne_of_gt hn)]
  exact Nat.succ_pos _

/-- A number below a power of two has at most as many digits as there are below it. -/
theorem bitLength_le {n k : Nat} (h : n < pow2 k) : bitLength n ≤ k := by
  by_cases hn : n = 0
  · simp [bitLength, hn]
  · rw [bitLength, if_neg hn]
    exact (Nat.log2_lt hn).mpr h

/-- Each factor of two adds a digit. -/
theorem bitLength_mul_pow2 {n : Nat} (hn : 0 < n) (k : Nat) :
    bitLength (n * pow2 k) = bitLength n + k := by
  obtain ⟨l, hl⟩ := Nat.exists_eq_add_of_lt (bitLength_pos hn)
  rw [Nat.zero_add] at hl
  have hlow : pow2 (l + k) ≤ n * pow2 k := by
    rw [pow2_add]
    exact Nat.mul_le_mul_right _ (pow2_le_of_bitLength hl)
  have hhigh : n * pow2 k < pow2 (l + k + 1) := by
    rw [Nat.add_right_comm, pow2_add, ← hl]
    exact Nat.mul_lt_mul_of_pos_right (lt_pow2_bitLength n) (pow2_pos k)
  rw [bitLength_of_bounds hlow hhigh, hl, Nat.add_right_comm]

/-! ## Rounding what fits -/

variable {f : Format} {negative : Bool}

/-- The code of a finite number is taken apart into its fields again. -/
theorem ofCode_code {x : Binary f} (h : x.exponent.val < f.topExponent) :
    ofCode f x.negative (x.exponent * f.fractions + x.fraction) = x := by
  obtain ⟨negative, ⟨exponent, hexponent⟩, ⟨fraction, hfraction⟩⟩ := x
  have hcode : exponent * f.fractions + fraction ≤ f.topExponent * f.fractions :=
    calc exponent * f.fractions + fraction ≤ (exponent + 1) * f.fractions := by
          rw [Nat.succ_mul]
          exact Nat.add_le_add_left (Nat.le_of_lt hfraction) _
      _ ≤ f.topExponent * f.fractions := Nat.mul_le_mul_right _ h
  have hdiv : (exponent * f.fractions + fraction) / f.fractions = exponent := by
    rw [Nat.mul_comm, Nat.mul_add_div f.fractions_pos, Nat.div_eq_of_lt hfraction, Nat.add_zero]
  simp [ofCode, ofBits, Nat.min_eq_left hcode, hdiv, Nat.mod_eq_of_lt hexponent,
    Nat.mod_eq_of_lt hfraction]

/-- Nothing rounds to zero, whatever its exponent. -/
theorem round_zero (exponent : Int) : round f negative 0 exponent = ofCode f negative 0 := by
  have hshift : ∀ k, roundShift 0 k = 0 := fun k => by simpa using roundShift_mul_pow2 0 k
  simp only [round, Nat.zero_mul, hshift, ite_self, if_true]

/-- Rounding what fits a format, which is that the last place the format keeps is not above the last
place of the mantissa. The scale of the mantissa does not matter. -/
theorem round_scaled (negative : Bool) (mantissa : Nat) (exponent place : Int) (scale : Nat)
    (hm : 0 < mantissa)
    (hplace : place = max (exponent + bitLength mantissa - (f.fractionBits + 1)) f.leastExponent)
    (hfits : place ≤ exponent) :
    round f negative (mantissa * pow2 scale) (exponent - scale) =
      ofCode f negative (mantissa * pow2 (exponent - place).toNat +
        (place - f.leastExponent).toNat * f.fractions) := by
  have hpos : mantissa * pow2 (exponent - place).toNat ≠ 0 :=
    Nat.ne_of_gt (Nat.mul_pos hm (pow2_pos _))
  have htop : exponent - scale + (bitLength mantissa + scale : Nat) - (f.fractionBits + 1) =
      exponent + bitLength mantissa - (f.fractionBits + 1) := by omega
  -- the scaled mantissa may reach below the last place, but only with zeros
  have hkept : (if place ≤ exponent - scale then
        mantissa * pow2 scale * pow2 (exponent - scale - place).toNat
      else roundShift (mantissa * pow2 scale) (place - (exponent - scale)).toNat) =
      mantissa * pow2 (exponent - place).toNat := by
    by_cases h : place ≤ exponent - scale
    · rw [if_pos h, Nat.mul_assoc, ← pow2_add]
      congr 2
      omega
    · have hscale : scale =
          (exponent - place).toNat + (place - (exponent - scale)).toNat := by omega
      rw [if_neg h]
      conv => lhs; rw [show pow2 scale = pow2 ((exponent - place).toNat +
        (place - (exponent - scale)).toNat) from congrArg pow2 hscale]
      rw [pow2_add, ← Nat.mul_assoc, roundShift_mul_pow2]
  rw [round, bitLength_mul_pow2 hm, htop, ← hplace]
  simp only [hkept, if_neg hpos]

/-- A number of a format is what its own magnitude rounds to, in any scale. -/
theorem round_magnitude {x : Binary f} {mantissa : Nat} {exponent : Int}
    (hx : x.magnitude = .finite mantissa exponent) (scale : Nat) :
    round f x.negative (mantissa * pow2 scale) (exponent - scale) = x := by
  have hfinite : x.exponent.val < f.topExponent := by
    have hle : x.exponent.val ≤ f.topExponent := Nat.le_sub_one_of_lt x.exponent.isLt
    refine Nat.lt_of_le_of_ne hle fun htop => ?_
    rw [magnitude, if_pos htop] at hx
    split at hx <;> cases hx
  have hfraction : x.fraction.val < pow2 f.fractionBits := x.fraction.isLt
  rw [magnitude, if_neg (Nat.ne_of_lt hfinite)] at hx
  by_cases hsubnormal : x.exponent.val = 0
  · -- a subnormal number is its fraction, in units of the least exponent
    rw [if_pos hsubnormal, Magnitude.finite.injEq] at hx
    obtain ⟨rfl, rfl⟩ := hx
    have hcode := ofCode_code hfinite
    rw [hsubnormal, Nat.zero_mul, Nat.zero_add] at hcode
    by_cases hzero : x.fraction.val = 0
    · rw [hzero, Nat.zero_mul, round_zero, ← hzero, hcode]
    · have hlength := bitLength_le hfraction
      rw [round_scaled x.negative _ _ f.leastExponent scale (Nat.pos_of_ne_zero hzero)
        (by omega) (Int.le_refl _)]
      simpa [pow2_zero] using hcode
  · -- a normal number has all the digits of the format
    rw [if_neg hsubnormal, Magnitude.finite.injEq] at hx
    obtain ⟨rfl, rfl⟩ := hx
    have hlength : bitLength (f.fractions + x.fraction) = f.fractionBits + 1 := by
      refine bitLength_of_bounds (Nat.le_add_right _ _) ?_
      rw [pow2_succ, Nat.two_mul]
      exact Nat.add_lt_add_left hfraction _
    have hpos : 0 < f.fractions + x.fraction := Nat.add_pos_left (pow2_pos _) _
    rw [round_scaled x.negative _ _ (f.leastExponent + (x.exponent.val - 1 : Nat)) scale hpos
      (by omega) (Int.le_refl _)]
    have hcode : (f.fractions + x.fraction) * pow2 0 + (x.exponent.val - 1) * f.fractions =
        x.exponent * f.fractions + x.fraction := by
      obtain ⟨e, he⟩ := Nat.exists_eq_succ_of_ne_zero hsubnormal
      rw [he, pow2_zero, Nat.succ_sub_one, Nat.succ_mul]
      omega
    have hzero : f.leastExponent + (x.exponent.val - 1 : Nat) -
        (f.leastExponent + (x.exponent.val - 1 : Nat)) = 0 := by omega
    have hoffset : (f.leastExponent + (x.exponent.val - 1 : Nat) - f.leastExponent).toNat =
        x.exponent.val - 1 := by omega
    rw [hzero, hoffset, Int.toNat_zero, hcode, ofCode_code hfinite]

/-- What has no more digits than a format and stands in its normal range keeps its magnitude when it
is rounded to the format; only the scale changes. -/
theorem magnitude_round (negative : Bool) (mantissa : Nat) (exponent : Int) (hm : 0 < mantissa)
    (hdigits : bitLength mantissa ≤ f.fractionBits + 1)
    (hleast : f.leastExponent ≤ exponent + bitLength mantissa - (f.fractionBits + 1))
    (htop : exponent + bitLength mantissa - (f.fractionBits + 1) + 1 <
      f.leastExponent + f.topExponent) :
    ∃ scale : Nat, (round f negative mantissa exponent).negative = negative ∧
      (round f negative mantissa exponent).magnitude =
        .finite (mantissa * pow2 scale) (exponent - scale) := by
  -- the scale that brings the mantissa to as many digits as the format has
  obtain ⟨scale, hscale⟩ := Nat.exists_eq_add_of_le hdigits
  have hlow : f.fractions ≤ mantissa * pow2 scale := by
    refine pow2_le_of_bitLength ?_
    rw [bitLength_mul_pow2 hm, hscale]
  have hhigh : mantissa * pow2 scale < 2 * f.fractions := by
    have := lt_pow2_bitLength (mantissa * pow2 scale)
    rwa [bitLength_mul_pow2 hm, ← hscale, pow2_succ] at this
  obtain ⟨fraction, hfraction⟩ := Nat.exists_eq_add_of_le hlow
  have hbelow : fraction < f.fractions := by omega
  obtain ⟨field, hfield⟩ := Int.eq_ofNat_of_zero_le
    (show 0 ≤ exponent - scale - f.leastExponent by omega)
  have htop' : field + 1 < f.topExponent := by omega
  have hexponents : field + 1 < f.exponents := Nat.lt_of_lt_of_le htop' (Nat.sub_le _ _)
  -- the rounded number has these fields
  have hround : round f negative mantissa exponent =
      ⟨negative, ⟨field + 1, hexponents⟩, ⟨fraction, hbelow⟩⟩ := by
    have h := round_scaled (f := f) negative mantissa exponent (exponent - scale) 0 hm
      (by omega) (by omega)
    have hscale' : (exponent - (exponent - scale)).toNat = scale := by omega
    have hoffset : (exponent - scale - f.leastExponent).toNat = field := by omega
    rw [pow2_zero, Nat.mul_one, Int.natCast_zero, Int.sub_zero, hscale', hoffset] at h
    have hcode : mantissa * pow2 scale + field * f.fractions =
        (field + 1) * f.fractions + fraction := by
      rw [hfraction, Nat.succ_mul]
      omega
    rw [h, hcode]
    exact ofCode_code (x := ⟨negative, ⟨field + 1, hexponents⟩, ⟨fraction, hbelow⟩⟩) htop'
  refine ⟨scale, by rw [hround], ?_⟩
  rw [hround, magnitude, if_neg (Nat.ne_of_lt htop'), if_neg (Nat.succ_ne_zero _), hfraction]
  congr 1
  simp only [Nat.add_sub_cancel]
  omega

/-! ## Widening and narrowing -/

/-- A number that is infinite is the infinity of its sign. -/
theorem eq_infinity {x : Binary f} (hx : x.magnitude = .infinite) :
    x = infinity f x.negative := by
  have htop : x.exponent.val = f.topExponent ∧ x.fraction.val = 0 := by
    rw [magnitude] at hx
    grind
  have hmod : f.topExponent % f.exponents = f.topExponent :=
    Nat.mod_eq_of_lt (htop.1 ▸ x.exponent.isLt)
  obtain ⟨negative, exponent, fraction⟩ := x
  rw [infinity, ofCode, ofBits, Nat.min_self, Binary.mk.injEq]
  refine ⟨rfl, Fin.ext ?_, Fin.ext ?_⟩
  · simpa only [Nat.mul_div_cancel _ f.fractions_pos, hmod] using htop.1
  · simpa only [Nat.mul_mod_left] using htop.2

/-- How large and how fine the finite 32-bit numbers are. -/
theorem magnitude_bounds {x : Binary32} {mantissa : Nat} {exponent : Int}
    (hx : x.magnitude = .finite mantissa exponent) :
    mantissa < pow2 24 ∧ -149 ≤ exponent ∧ exponent ≤ 104 := by
  have hfraction : x.fraction.val < 8388608 := x.fraction.isLt
  have hexponent : x.exponent.val < 256 := x.exponent.isLt
  have htop : Format.single.topExponent = 255 := rfl
  have hleast : Format.single.leastExponent = -149 := rfl
  have hfractions : Format.single.fractions = 8388608 := rfl
  have hpow : pow2 24 = 16777216 := rfl
  rw [magnitude, htop, hleast] at hx
  split at hx
  · split at hx <;> cases hx
  · split at hx <;> cases hx <;> omega

/-- Only subnormal numbers can be zero. -/
theorem exponent_eq_of_magnitude_zero {x : Binary f} {exponent : Int}
    (hx : x.magnitude = .finite 0 exponent) : exponent = f.leastExponent := by
  have hpos := f.fractions_pos
  rw [magnitude] at hx
  split at hx
  · split at hx <;> cases hx
  · split at hx
    · exact (Magnitude.finite.inj hx).2.symm
    · have hzero := (Magnitude.finite.inj hx).1
      omega

/-- A 32-bit number that is finite is a 64-bit number with the same magnitude, in some scale. -/
theorem magnitude_widen {x : Binary32} {mantissa : Nat} {exponent : Int}
    (hx : x.magnitude = .finite mantissa exponent) :
    ∃ scale : Nat, x.widen.negative = x.negative ∧
      x.widen.magnitude = .finite (mantissa * pow2 scale) (exponent - scale) := by
  obtain ⟨hmantissa, hlow, hhigh⟩ := magnitude_bounds hx
  rw [widen, convert, hx]
  by_cases hm : mantissa = 0
  · subst hm
    rw [exponent_eq_of_magnitude_zero hx]
    simp only [round_zero, Nat.zero_mul]
    exact ⟨925, by cases x.negative <;> exact ⟨rfl, rfl⟩⟩
  · have hpos := Nat.pos_of_ne_zero hm
    have hlength := bitLength_le hmantissa
    have hdouble : Format.double.fractionBits = 52 ∧ Format.double.leastExponent = -1074 ∧
        Format.double.topExponent = 2047 := ⟨rfl, rfl, rfl⟩
    exact magnitude_round x.negative mantissa exponent hpos (by omega) (by omega) (by omega)

/-- An infinity is widened to the infinity of its sign. -/
theorem magnitude_widen_of_infinite {x : Binary32} (hx : x.magnitude = .infinite) :
    x.widen.negative = x.negative ∧ x.widen.magnitude = .infinite := by
  rw [widen, convert, hx]
  cases x.negative <;> exact ⟨rfl, rfl⟩

/-- Narrowing undoes widening, bit for bit. -/
theorem narrow_widen {x : Binary32} (hx : x.isNaN = false) : x.widen.narrow = x := by
  cases hmagnitude : x.magnitude with
  | nan => simp [isNaN, hmagnitude] at hx
  | infinite =>
    obtain ⟨hsign, hwide⟩ := magnitude_widen_of_infinite hmagnitude
    simp only [narrow, convert, hwide, hsign]
    exact (eq_infinity hmagnitude).symm
  | finite mantissa exponent =>
    obtain ⟨scale, hsign, hwide⟩ := magnitude_widen hmagnitude
    simp only [narrow, convert, hwide, hsign]
    exact round_magnitude hmagnitude scale

/-! ## What comes back -/

/-- The number, but one NaN for all of them. -/
def quiet (x : Binary f) : Binary f := if x.isNaN then nan f else x

/-- Widening and narrowing changes nothing but NaNs. -/
theorem narrow_widen_eq_quiet (x : Binary32) : x.widen.narrow = x.quiet := by
  cases hx : x.isNaN with
  | false => rw [narrow_widen hx, quiet, hx, if_neg (by simp)]
  | true =>
    have hmagnitude : x.magnitude = .nan := by simpa [isNaN] using hx
    rw [quiet, hx, if_pos rfl, widen, convert, hmagnitude]
    rfl

@[simp] theorem canonical_quiet (x : Binary32) : x.quiet.canonical = x.canonical := by
  cases hx : x.isNaN with
  | false => rw [quiet, hx, if_neg (by simp)]
  | true =>
    have hmagnitude : x.magnitude = .nan := by simpa [isNaN] using hx
    rw [quiet, hx, if_pos rfl, canonical, canonical, hmagnitude]
    rfl

theorem same_quiet (x y : Binary32) : x.quiet.same y.quiet = x.same y := by
  simp [same]

/-- Narrowing does not tell numbers apart that are the same. -/
theorem canonical_narrow_canonical (x : Binary64) :
    x.canonical.narrow.canonical = x.narrow.canonical := by
  cases hx : x.magnitude with
  | nan =>
    have hcanonical : x.canonical = nan _ := by simp only [canonical, hx]
    have hnarrow : x.narrow = nan _ := by simp only [narrow, convert, hx]
    rw [hcanonical, hnarrow]
    rfl
  | infinite =>
    have hcanonical : x.canonical = x := by simp only [canonical, hx]
    rw [hcanonical]
  | finite mantissa exponent =>
    cases mantissa with
    | zero =>
      have hcanonical : x.canonical = zero _ := by simp only [canonical, hx]
      have hnarrow : x.narrow = ofCode _ x.negative 0 := by
        simp only [narrow, convert, hx, round_zero]
      have hzero : (zero .double).magnitude = .finite 0 (-1074) ∧
          (zero .double).negative = false := ⟨rfl, rfl⟩
      rw [hcanonical, hnarrow]
      simp only [narrow, convert, hzero.1, hzero.2, round_zero]
      cases x.negative <;> rfl
    | succ mantissa =>
      have hcanonical : x.canonical = x := by simp only [canonical, hx]
      rw [hcanonical]

/-- Widening does not make numbers the same. -/
theorem same_of_same_widen {x y : Binary32} (h : x.widen.same y.widen = true) :
    x.same y = true := by
  simp only [same, beq_iff_eq] at h ⊢
  have hcanonical (z : Binary32) : z.canonical = z.widen.canonical.narrow.canonical := by
    rw [canonical_narrow_canonical, narrow_widen_eq_quiet, canonical_quiet]
  rw [hcanonical x, hcanonical y, h]

end Binary

end ScriptBridge
