import Mathlib.Data.Int.ModEq
import Mathlib.Data.Nat.Digits.Lemmas
import ScriptBridge.Integer

/-!
# Bytes of integers, and reduction by way of them

Reduction to a fixed width does not compute a remainder. It writes the shortest bytes of a number
into a buffer of 16, the rest of which is the sign, and reads the buffer back. The shortest form may
end before the buffer does, at its end or behind it, and the last byte of a number such as 128 is
nothing but the sign. None of this makes a difference: the buffer holds the low bytes of the number,
and those are its remainder.

- `TwosComplement.unsigned_bytes`: the low bytes of a number are its remainder.
- `TwosComplement.Fits`, `TwosComplement.size_le_iff`: how many bytes a number needs.
- `TwosComplement.isShortest_iff`: no other bytes are a number and as few as its shortest form.
- `TwosComplement.buffer_eq_bytes`: the buffer holds the low bytes of the number.
- `Fixed.reduce_modEq`, `IntType.InRange.eq_of_modEq`: a remainder in range, and the only one.
- `Fixed.lowBits_modEq`, `Fixed.wrap_modEq`: what is read back from the buffer is a remainder.
-/

namespace ScriptBridge

namespace TwosComplement

/-! ## The number that bytes are -/

theorem unsigned_eq_ofDigits (bs : List UInt8) :
    unsigned bs = Nat.ofDigits 256 (bs.map UInt8.toNat) := by
  induction bs with
  | nil => rfl
  | cons b bs ih => rw [unsigned, ih, List.map_cons, Nat.ofDigits_cons]

theorem digits_lt (bs : List UInt8) : ∀ d ∈ bs.map UInt8.toNat, d < 256 := by
  intro d hd
  obtain ⟨b, -, rfl⟩ := List.mem_map.mp hd
  exact b.toNat_lt

theorem unsigned_lt (bs : List UInt8) : unsigned bs < 256 ^ bs.length := by
  have h := Nat.ofDigits_lt_base_pow_length (by decide) (digits_lt bs)
  rwa [List.length_map, ← unsigned_eq_ofDigits] at h

/-- Of byte strings of one length, no two are the same number. -/
theorem eq_of_unsigned_eq {bs cs : List UInt8} (hlength : bs.length = cs.length)
    (h : unsigned bs = unsigned cs) : bs = cs := by
  rw [unsigned_eq_ofDigits, unsigned_eq_ofDigits] at h
  have hdigits : bs.map UInt8.toNat = cs.map UInt8.toNat :=
    Nat.ofDigits_inj_of_len_eq (by decide) (by simpa using hlength) (digits_lt bs) (digits_lt cs) h
  exact (List.map_inj_right fun _ _ => UInt8.toNat_inj.mp).mp hdigits

@[simp] theorem length_bytes (n : Int) (k : Nat) : (bytes n k).length = k := by
  induction k generalizing n with
  | zero => rfl
  | succ k ih => rw [bytes, List.length_cons, ih]

theorem toNat_ofInt (n : Int) : ((UInt8.ofInt n).toNat : Int) = n % 256 := by
  have hnonneg := Int.emod_nonneg n (b := 256) (by decide)
  have hlt := Int.emod_lt_of_pos n (b := 256) (by decide)
  rw [UInt8.ofInt, UInt8.toNat_ofNat_of_lt' (by show _ < 256; omega)]
  exact Int.toNat_of_nonneg hnonneg

/-- The low bytes of a number are its remainder. -/
theorem unsigned_bytes (n : Int) (k : Nat) : (unsigned (bytes n k) : Int) = n % 256 ^ k := by
  induction k generalizing n with
  | zero => simp [bytes, unsigned]
  | succ k ih =>
    have hdiv : n / 256 / 256 ^ k = n / 256 ^ (k + 1) := by
      rw [Int.ediv_ediv_of_nonneg (by decide), pow_succ']
    rw [bytes, unsigned]
    push_cast
    rw [toNat_ofInt, ih, Int.emod_def n, Int.emod_def (n / 256), Int.emod_def n (256 ^ (k + 1)),
      hdiv, pow_succ']
    ring

/-! ## How many bytes a number needs -/

/-- A number whose magnitude and sign so many bytes hold. -/
def Fits (n : Int) (k : Nat) : Prop := -(256 ^ k : Nat) ≤ 2 * n ∧ 2 * n < (256 ^ k : Nat)

/-- The number that bytes are when the highest bit is the sign. -/
def signed (bs : List UInt8) : Int := (unsigned bs : Int).bmod (256 ^ bs.length)

/-- Any number of bytes but none is an even number of numbers, half of them negative. -/
theorem even_pow {k : Nat} (hk : 0 < k) : ∃ half : Nat, 256 ^ k = 2 * half := by
  obtain ⟨j, rfl⟩ := Nat.exists_eq_succ_of_ne_zero (Nat.ne_of_gt hk)
  exact ⟨128 * 256 ^ j, by rw [Nat.pow_succ]; omega⟩

theorem fits_iff_magnitude {n : Int} {k : Nat} (hk : 0 < k) :
    Fits n k ↔ 2 * magnitude n + 1 < 256 ^ k := by
  obtain ⟨half, hhalf⟩ := even_pow hk
  unfold Fits
  rw [hhalf]
  cases n with
  | ofNat m =>
    rw [magnitude, Int.ofNat_eq_natCast]
    omega
  | negSucc m =>
    rw [magnitude, Int.negSucc_eq]
    omega

/-- A number needs no more bytes than hold it. -/
theorem size_le_iff {n : Int} {k : Nat} : size n ≤ k ↔ 0 < k ∧ Fits n k := by
  by_cases hk : 0 < k
  · have hpow : (256 : Nat) ^ k = 2 ^ (8 * k) := by rw [Nat.pow_mul]
    rw [fits_iff_magnitude hk, hpow, ← Nat.log2_lt (n := 2 * magnitude n + 1) (by omega), size]
    omega
  · rw [size]
    omega

theorem size_pos (n : Int) : 0 < size n := Nat.succ_pos _

theorem fits_size (n : Int) : Fits n (size n) := (size_le_iff.mp (Nat.le_refl _)).2

/-- Bytes that hold a number are that number. -/
theorem signed_bytes {n : Int} {k : Nat} (h : Fits n k) : signed (bytes n k) = n := by
  have hcast : ((256 ^ k : Nat) : Int) = 256 ^ k := by push_cast; rfl
  obtain ⟨hlow, hhigh⟩ := h
  rw [signed, length_bytes, unsigned_bytes, ← hcast, Int.emod_bmod]
  exact Int.bmod_eq_of_le (by omega) (by omega)

/-- Bytes are the low bytes of the number that they are. -/
theorem eq_bytes_signed (bs : List UInt8) : bs = bytes (signed bs) bs.length := by
  have hcast : ((256 ^ bs.length : Nat) : Int) = 256 ^ bs.length := by push_cast; rfl
  have hlt : (unsigned bs : Int) < (256 ^ bs.length : Nat) := Int.ofNat_lt.mpr (unsigned_lt bs)
  refine eq_of_unsigned_eq (length_bytes _ _).symm (Int.ofNat_inj.mp ?_)
  rw [unsigned_bytes, signed, ← hcast, Int.bmod_emod]
  exact (Int.emod_eq_of_lt (Int.natCast_nonneg _) hlt).symm

/-- Bytes hold the number that they are. -/
theorem fits_signed {bs : List UInt8} (hbs : 0 < bs.length) : Fits (signed bs) bs.length := by
  obtain ⟨half, hhalf⟩ := even_pow hbs
  have hpos : 0 < 256 ^ bs.length := Nat.pow_pos (by decide)
  have hlow := Int.le_bmod (x := unsigned bs) hpos
  have hhigh := Int.bmod_lt (x := unsigned bs) hpos
  unfold Fits signed
  omega

/-- Bytes that are a number, when fewer bytes are not. -/
structure IsShortest (n : Int) (bs : List UInt8) : Prop where
  nonempty : 0 < bs.length
  signed_eq : signed bs = n
  least : ∀ cs : List UInt8, 0 < cs.length → signed cs = n → bs.length ≤ cs.length

/-- **The shortest form of a number.** It is the number in the fewest bytes, and no other bytes are
as few. -/
theorem isShortest_iff {n : Int} {bs : List UInt8} : IsShortest n bs ↔ bs = shortest n := by
  have hleast : ∀ cs : List UInt8, 0 < cs.length → signed cs = n → size n ≤ cs.length := by
    rintro cs hcs rfl
    exact size_le_iff.mpr ⟨hcs, fits_signed hcs⟩
  have hsigned : signed (shortest n) = n := signed_bytes (fits_size n)
  have hlength : (shortest n).length = size n := length_bytes n (size n)
  constructor
  · rintro ⟨hbs, rfl, hfewest⟩
    have hle := hfewest (shortest (signed bs)) (hlength ▸ size_pos _) hsigned
    have hge := hleast bs hbs rfl
    have heq : bs.length = size (signed bs) := by omega
    rw [shortest, ← heq]
    exact eq_bytes_signed bs
  · rintro rfl
    exact ⟨hlength ▸ size_pos n, hsigned, fun cs hcs h => hlength ▸ hleast cs hcs h⟩

/-! ## The buffer -/

theorem bytes_zero (k : Nat) : bytes 0 k = List.replicate k (signByte 0) := by
  induction k with
  | zero => rfl
  | succ k ih => exact congrArg (signByte 0 :: ·) ih

theorem bytes_neg_one (k : Nat) : bytes (-1) k = List.replicate k (signByte (-1)) := by
  induction k with
  | zero => rfl
  | succ k ih => exact congrArg (signByte (-1) :: ·) ih

/-- Division leaves the sign alone, as it rounds down. -/
theorem signByte_div (n : Int) : signByte (n / 256) = signByte n := by
  have hsign : n / 256 < 0 ↔ n < 0 := by omega
  simp only [signByte, hsign]

/-- Bytes of a number over its sign, once only the sign is left of the number behind them. -/
theorem overwrite_bytes {n : Int} {length : Nat}
    (h : n / 256 ^ length = 0 ∨ n / 256 ^ length = -1) (k : Nat) :
    overwrite (List.replicate k (signByte n)) (bytes n length) = bytes n k := by
  induction length generalizing n k with
  | zero =>
    rw [pow_zero, Int.ediv_one] at h
    have hbuffer : bytes n k = List.replicate k (signByte n) := by
      rcases h with rfl | rfl
      · exact bytes_zero k
      · exact bytes_neg_one k
    rw [hbuffer]
    cases k <;> rfl
  | succ length ih =>
    cases k with
    | zero => rfl
    | succ k =>
      have hdiv : n / 256 / 256 ^ length = n / 256 ^ (length + 1) := by
        rw [Int.ediv_ediv_of_nonneg (by decide), pow_succ']
      have hrest := ih (hdiv ▸ h) k
      rw [signByte_div] at hrest
      rw [List.replicate_succ, bytes, bytes, overwrite, hrest]

/-- Behind bytes that hold a number there is only its sign. -/
theorem Fits.div_eq {n : Int} {k : Nat} (h : Fits n k) : n / 256 ^ k = 0 ∨ n / 256 ^ k = -1 := by
  have hcast : ((256 ^ k : Nat) : Int) = 256 ^ k := by push_cast; rfl
  obtain ⟨hlow, hhigh⟩ := h
  have hpos : (0 : Int) < 256 ^ k := by positivity
  rw [hcast] at hlow hhigh
  by_cases hn : 0 ≤ n
  · exact .inl (Int.ediv_eq_zero_of_lt hn (by omega))
  · exact .inr ((Int.ediv_eq_iff_of_pos hpos).mpr ⟨by omega, by omega⟩)

/-- The buffer holds the low bytes of the number, wherever the shortest form ends. -/
theorem buffer_eq_bytes (n : Int) (k : Nat) : buffer n k = bytes n k :=
  overwrite_bytes (fits_size n).div_eq k

end TwosComplement

/-! ## Remainders -/

theorem IntType.natCast_modulus (t : IntType) : (t.modulus : Int) = 2 ^ t.width.bits := by
  show ((2 ^ t.width.bits : Nat) : Int) = _
  push_cast
  rfl

/-- A type has each remainder once. -/
theorem IntType.InRange.eq_of_modEq {t : IntType} {m n : Int} (hm : t.InRange m)
    (hn : t.InRange n) (h : m ≡ n [ZMOD 2 ^ t.width.bits]) : m = n := by
  have hmodulus := t.modulus_eq
  have hdvd : (t.modulus : Int) ∣ n - m := by
    rw [IntType.natCast_modulus]
    exact h.dvd
  have hlt : |n - m| < t.modulus := by
    unfold IntType.InRange IntType.least IntType.greatest at hm hn
    rw [abs_lt]
    cases hsigned : t.signed with
    | true =>
      simp only [hsigned, if_true] at hm hn
      omega
    | false =>
      simp only [hsigned, Bool.false_eq_true, if_false] at hm hn
      omega
  have hzero := Int.eq_zero_of_abs_lt_dvd hdvd hlt
  omega

namespace Fixed

/-- What a number is reduced to is a remainder of it. -/
theorem reduce_modEq (t : IntType) (n : Int) : reduce t n ≡ n [ZMOD 2 ^ t.width.bits] := by
  rw [← IntType.natCast_modulus, reduce]
  cases t.signed with
  | true => exact Int.bmod_emod
  | false => exact Int.mod_modEq n _

/-- The low bits of a number are a remainder of it. -/
theorem lowBits_modEq (n : Int) : (lowBits n).val ≡ n [ZMOD 2 ^ 128] := by
  have hbits : IntType.int128.width.bits = 128 := rfl
  have hbuffer : (TwosComplement.unsigned (TwosComplement.buffer n 16) : Int) = n % 2 ^ 128 := by
    rw [TwosComplement.buffer_eq_bytes, TwosComplement.unsigned_bytes]
    norm_num
  have hcast := reduce_modEq .int128 (TwosComplement.unsigned (TwosComplement.buffer n 16))
  rw [hbits, hbuffer] at hcast
  rw [lowBits, cast, hbuffer]
  exact hcast.trans (Int.mod_modEq n _)

/-- What a number is wrapped to is a remainder of it, since no type is wider than its low bits. -/
theorem wrap_modEq (t : IntType) (n : Int) : (wrap t n).val ≡ n [ZMOD 2 ^ t.width.bits] := by
  have hbits : t.width.bits ≤ 128 := by cases t.width <;> decide
  exact (reduce_modEq t _).trans ((lowBits_modEq n).of_dvd (pow_dvd_pow 2 hbits))

end Fixed

end ScriptBridge
