import ScriptBridge.Power
import ScriptBridge.TwosComplement

/-!
# Fixed-width integers

The integer types of host values, each with its range. Script integers have no bound, so a range
decides whether one fits and `wrap` what becomes of one that is reduced instead.

- `IntType`: signed or unsigned, of one of six widths.
- `IntType.InRange`: between the least and the greatest number of the type.
- `Fixed`: a number of a type, with the proof that it is in range.
- `Fixed.ofInt?`: the number if it fits.
- `Fixed.cast`: the number of the type with the same low bits.
- `Fixed.lowBits`: the 128 low bits of a number of any size, by way of its bytes.
- `Fixed.wrap`: the number of the type that agrees modulo `2 ^ bits`.
-/

namespace ScriptBridge

/-- The widths of host integers. -/
inductive IntWidth where
  | bits8
  | bits16
  | bits32
  | bits64
  | bits128
  /-- The width of a machine word, which is 64 bits. -/
  | word
deriving DecidableEq, Repr

namespace IntWidth

/-- How many bits a width has. -/
def bits : IntWidth → Nat
  | bits8 => 8
  | bits16 => 16
  | bits32 => 32
  | bits64 => 64
  | bits128 => 128
  | word => 64

/-- The end of a type's name. -/
def suffix : IntWidth → String
  | bits8 => "8"
  | bits16 => "16"
  | bits32 => "32"
  | bits64 => "64"
  | bits128 => "128"
  | word => "size"

/-- Only one width is more than a machine word. -/
theorem bits_le_of_ne {w : IntWidth} (h : w = bits128 → False) : w.bits ≤ 64 := by
  cases w with
  | bits128 => exact (h rfl).elim
  | _ => decide

end IntWidth

/-- A fixed-width integer type. -/
structure IntType where
  signed : Bool
  width : IntWidth
deriving DecidableEq, Repr

namespace IntType

/-- The unsigned 8-bit type, the element type of byte sequences. -/
def byte : IntType := ⟨false, .bits8⟩

/-- The signed 64-bit type. -/
def int64 : IntType := ⟨true, .bits64⟩

/-- The unsigned 64-bit type. -/
def uint64 : IntType := ⟨false, .bits64⟩

/-- The signed 128-bit type, the widest of the signed ones. -/
def int128 : IntType := ⟨true, .bits128⟩

/-- The name of a type in error messages. -/
def name (t : IntType) : String := (if t.signed then "i" else "u") ++ t.width.suffix

/-- How many numbers the type has. -/
def modulus (t : IntType) : Nat := pow2 t.width.bits

/-- Half as many: how far the signed type of this width reaches below zero. -/
def half (t : IntType) : Nat := pow2 (t.width.bits - 1)

/-- The least number of the type. -/
def least (t : IntType) : Int := if t.signed then -(t.half : Int) else 0

/-- The greatest number of the type. -/
def greatest (t : IntType) : Int := if t.signed then t.half - 1 else t.modulus - 1

/-- The numbers of the type. -/
def InRange (t : IntType) (n : Int) : Prop := t.least ≤ n ∧ n ≤ t.greatest

instance (t : IntType) (n : Int) : Decidable (t.InRange n) := by
  unfold InRange; infer_instance

theorem half_pos (t : IntType) : 0 < t.half := pow2_pos _

/-- Every width has a bit to spare for the sign. -/
theorem modulus_eq (t : IntType) : t.modulus = 2 * t.half := by
  have h : t.width.bits = (t.width.bits - 1) + 1 := by cases t.width <;> rfl
  unfold modulus half
  rw [h, pow2_succ, Nat.add_sub_cancel]

/-- A type has the numbers of every type of its sign that is no wider. -/
theorem InRange.mono {s t : IntType} {n : Int} (hsign : s.signed = t.signed)
    (hbits : s.width.bits ≤ t.width.bits) (h : s.InRange n) : t.InRange n := by
  have hhalf : s.half ≤ t.half := Nat.pow_le_pow_right (by decide) (Nat.sub_le_sub_right hbits 1)
  have hmodulus : s.modulus ≤ t.modulus := Nat.pow_le_pow_right (by decide) hbits
  unfold InRange least greatest at h ⊢
  cases hsigned : t.signed with
  | true =>
    simp only [hsign, hsigned, if_true] at h ⊢
    omega
  | false =>
    simp only [hsign, hsigned, Bool.false_eq_true, if_false] at h ⊢
    omega

end IntType

/-- A number of a fixed-width type. -/
structure Fixed (t : IntType) where
  val : Int
  inRange : t.InRange val
deriving DecidableEq

namespace Fixed

variable {t : IntType}

theorem val_inj {m n : Fixed t} : m.val = n.val ↔ m = n := by
  refine ⟨fun h => ?_, congrArg Fixed.val⟩
  cases m
  cases n
  cases h
  rfl

/-- The number as one of the type, if it fits. -/
def ofInt? (t : IntType) (n : Int) : Option (Fixed t) :=
  if h : t.InRange n then some ⟨n, h⟩ else none

theorem val_of_ofInt? {n : Int} {m : Fixed t} (h : ofInt? t n = some m) : m.val = n := by
  unfold ofInt? at h
  split at h <;> cases h
  rfl

/-- The number of the type that agrees with `n` modulo the type's modulus. Signed types take the
balanced remainder, which is two's complement. -/
def reduce (t : IntType) (n : Int) : Int :=
  if t.signed then n.bmod t.modulus else n % t.modulus

theorem reduce_inRange (t : IntType) (n : Int) : t.InRange (reduce t n) := by
  have hm := t.modulus_eq
  have hpos := t.half_pos
  unfold IntType.InRange IntType.least IntType.greatest reduce
  cases t.signed with
  | true =>
    have h1 := Int.le_bmod (x := n) (m := t.modulus) (by omega)
    have h2 := Int.bmod_lt (x := n) (m := t.modulus) (by omega)
    simp only [if_true]
    omega
  | false =>
    have h1 := Int.emod_nonneg n (b := (t.modulus : Int)) (by omega)
    have h2 := Int.emod_lt_of_pos n (b := (t.modulus : Int)) (by omega)
    simp only [Bool.false_eq_true, if_false]
    omega

/-- A number of the type is what it is reduced to. -/
theorem reduce_of_inRange {n : Int} (h : t.InRange n) : reduce t n = n := by
  have hm := t.modulus_eq
  unfold IntType.InRange IntType.least IntType.greatest at h
  unfold reduce
  cases hsigned : t.signed with
  | true =>
    simp only [hsigned, if_true] at h ⊢
    exact Int.bmod_eq_of_le (by omega) (by omega)
  | false =>
    simp only [hsigned, Bool.false_eq_true, if_false] at h ⊢
    exact Int.emod_eq_of_lt (by omega) (by omega)

/-- The number of the type that has the same low bits. -/
def cast (t : IntType) (n : Int) : Fixed t := ⟨reduce t n, reduce_inRange t n⟩

/-- The low 128 bits of a number: those of a buffer of 16 bytes, read with a sign. -/
def lowBits (n : Int) : Fixed .int128 :=
  cast .int128 (TwosComplement.unsigned (TwosComplement.buffer n 16))

/-- Reduction to the type, by way of the low 128 bits. -/
def wrap (t : IntType) (n : Int) : Fixed t := cast t (lowBits n).val

end Fixed

end ScriptBridge
