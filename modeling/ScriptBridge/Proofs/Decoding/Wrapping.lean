import ScriptBridge.Proofs.Decoding.Faithful
import ScriptBridge.Proofs.TwosComplement

/-!
# Integers that are reduced instead of refused

A wrapping type takes integers of any size and either sign. What it makes of one is fixed by its
remainder modulo the size of the type alone, as a type has each remainder once; the bytes that the
decoder goes by do not show. So numbers that fit are kept, and sums come out as the type adds.

- `Fixed.modEq_iff_eq_wrap`, `Fixed.modEq_iff_eq_lowBits`: the remainders of a number.
- `Fixed.wrap_val`: reduction to a type keeps the numbers of the type.
- `Fixed.wrap_add`: it respects sums.
- `decode_wrapping_exact`: decoding into a wrapping type.
-/

namespace ScriptBridge

namespace Fixed

variable {t : IntType}

/-- The sum of two numbers of a type, as far as the type has bits for it. -/
def wrappingAdd (x y : Fixed t) : Fixed t := cast t (x.val + y.val)

/-- The remainder of a number that a type has. -/
theorem modEq_iff_eq_wrap {n y : Int} :
    t.InRange y ∧ y ≡ n [ZMOD 2 ^ t.width.bits] ↔ y = (wrap t n).val := by
  constructor
  · rintro ⟨hrange, hmod⟩
    exact hrange.eq_of_modEq (wrap t n).inRange (hmod.trans (wrap_modEq t n).symm)
  · rintro rfl
    exact ⟨(wrap t n).inRange, wrap_modEq t n⟩

/-- The remainder of a number modulo `2 ^ 128` that the widest signed type has. -/
theorem modEq_iff_eq_lowBits {n y : Int} :
    (-2 ^ 127 ≤ y ∧ y < 2 ^ 127) ∧ y ≡ n [ZMOD 2 ^ 128] ↔ y = (lowBits n).val := by
  have hrange {z : Int} : IntType.int128.InRange z ↔ -2 ^ 127 ≤ z ∧ z < 2 ^ 127 := by
    show -(2 ^ 127 : Nat) ≤ z ∧ z ≤ (2 ^ 127 : Nat) - 1 ↔ _
    omega
  have hbits : IntType.int128.width.bits = 128 := rfl
  rw [← hrange]
  constructor
  · rintro ⟨hy, hmod⟩
    refine hy.eq_of_modEq (lowBits n).inRange ?_
    rw [hbits]
    exact hmod.trans (lowBits_modEq n).symm
  · intro h
    rw [h]
    exact ⟨(lowBits n).inRange, lowBits_modEq n⟩

/-- A number of the type is kept. -/
theorem wrap_val (x : Fixed t) : wrap t x.val = x := by
  refine val_inj.mp ?_
  exact ((wrap t x.val).inRange.eq_of_modEq x.inRange (wrap_modEq t x.val))

/-- The sum of two numbers has the remainder of the sum of their remainders. -/
theorem wrap_add (m n : Int) : wrap t (m + n) = (wrap t m).wrappingAdd (wrap t n) := by
  refine val_inj.mp ((wrap t (m + n)).inRange.eq_of_modEq (reduce_inRange t _) ?_)
  calc (wrap t (m + n)).val
      ≡ m + n [ZMOD 2 ^ t.width.bits] := wrap_modEq t (m + n)
    _ ≡ (wrap t m).val + (wrap t n).val [ZMOD 2 ^ t.width.bits] :=
        (wrap_modEq t m).symm.add (wrap_modEq t n).symm
    _ ≡ reduce t ((wrap t m).val + (wrap t n).val) [ZMOD 2 ^ t.width.bits] :=
        (reduce_modEq t _).symm

end Fixed

/-- A wrapping type takes every integer. -/
theorem decode_wrapping (schema : Schema) (t : IntType) (n : Int) :
    decode schema (.int n) (.wrapping t) = .ok (.wrapping t (.wrap t n)) := rfl

/-- What the type itself takes is not reduced. -/
theorem eq_wrap_of_decode_int {schema : Schema} {t : IntType} {n : Int} {y : HostValue}
    (h : decode schema (.int n) (.int t) = .ok y) : y = .int t (.wrap t n) := by
  cases decodes_int h with
  | int x => rw [Fixed.wrap_val]

/-- **Integers of any size in a wrapping type.** Decoding an integer yields the one number of the
type that agrees with it modulo the size of the type. It gets there by way of the low 128 bits,
which are the signed number of 128 bits that agrees with the integer modulo `2 ^ 128`. A number that
the type itself takes is that number, and a sum is the sum that the type makes of what is decoded
from the summands. -/
theorem decode_wrapping_exact (schema : Schema) (t : IntType) (n : Int) :
    ∃ x : Fixed t, decode schema (.int n) (.wrapping t) = .ok (.wrapping t x) ∧
      (∀ y : Int, t.InRange y ∧ y ≡ n [ZMOD 2 ^ t.width.bits] ↔ y = x.val) ∧
      x = .cast t (Fixed.lowBits n).val ∧
      (∀ y : Int, (-2 ^ 127 ≤ y ∧ y < 2 ^ 127) ∧ y ≡ n [ZMOD 2 ^ 128] ↔
        y = (Fixed.lowBits n).val) ∧
      (∀ y : HostValue, decode schema (.int n) (.int t) = .ok y → y = .int t x) ∧
      ∀ (k : Int) (z : Fixed t), decode schema (.int k) (.wrapping t) = .ok (.wrapping t z) →
        decode schema (.int (n + k)) (.wrapping t) = .ok (.wrapping t (x.wrappingAdd z)) := by
  refine ⟨.wrap t n, decode_wrapping schema t n, fun _ => Fixed.modEq_iff_eq_wrap, rfl,
    fun _ => Fixed.modEq_iff_eq_lowBits, fun _ h => eq_wrap_of_decode_int h, ?_⟩
  intro k z hz
  rw [decode_wrapping] at hz
  cases hz
  rw [decode_wrapping, Fixed.wrap_add]

/-- A negative number of more than 128 bits, in a type of eight: what is left of it is positive. -/
theorem decode_wrapping_exact_negative :
    decode .empty (.int (-2 ^ 130 - 129)) (.wrapping ⟨true, .bits8⟩) =
      .ok (.wrapping ⟨true, .bits8⟩ ⟨127, by decide⟩) := by
  obtain ⟨x, hx, hremainder, -⟩ := decode_wrapping_exact .empty ⟨true, .bits8⟩ (-2 ^ 130 - 129)
  have hval : 127 = x.val := (hremainder 127).mp ⟨by decide, by decide⟩
  obtain rfl : ⟨127, by decide⟩ = x := Fixed.val_inj.mp hval
  exact hx

end ScriptBridge
