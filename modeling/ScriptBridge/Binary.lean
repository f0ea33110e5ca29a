import ScriptBridge.Power

/-!
# Binary floating-point numbers

A floating-point number is its three fields: a sign, a biased exponent and a fraction. Nothing here
uses machine arithmetic, so every rule below is a statement about natural numbers.

- `Format`: how many bits the exponent and the fraction have; `Format.single`, `Format.double`.
- `Binary`: the fields, with `ofBits` and `toBits` for the packed form.
- `Binary.magnitude`: not a number, infinite, or exactly `mantissa * 2 ^ exponent`.
- `Binary.canonical`: all NaNs alike and both zeros alike; two numbers are the same script number
  exactly when their canonical forms agree (`Binary.same`).
- `Binary.integral?`: the integer that a number is, if it is one.
- `Binary.round`: the nearest number of a format to an exact `mantissa * 2 ^ exponent`, a tie going
  to the even neighbour. Widening and narrowing are this one function.
-/

namespace ScriptBridge

/-- The field widths of a binary floating-point format. -/
structure Format where
  exponentBits : Nat
  fractionBits : Nat
deriving DecidableEq, Repr

namespace Format

/-- The 32-bit format. -/
def single : Format := ⟨8, 23⟩

/-- The 64-bit format. -/
def double : Format := ⟨11, 52⟩

/-- How many exponent fields there are. -/
def exponents (f : Format) : Nat := pow2 f.exponentBits

/-- How many fraction fields there are. -/
def fractions (f : Format) : Nat := pow2 f.fractionBits

/-- The exponent field that marks infinities and NaNs: all ones. -/
def topExponent (f : Format) : Nat := f.exponents - 1

/-- The power of two that one unit of a subnormal fraction stands for. -/
def leastExponent (f : Format) : Int :=
  2 - ((pow2 (f.exponentBits - 1) + f.fractionBits : Nat) : Int)

end Format

/-- A floating-point number of a format, as its fields. -/
structure Binary (f : Format) where
  negative : Bool
  exponent : Fin f.exponents
  fraction : Fin f.fractions
deriving DecidableEq, Repr

/-- The 32-bit numbers. -/
abbrev Binary32 := Binary Format.single

/-- The 64-bit numbers. -/
abbrev Binary64 := Binary Format.double

/-- What a number is, its sign aside. -/
inductive Magnitude where
  | nan
  | infinite
  /-- Exactly `mantissa * 2 ^ exponent`. -/
  | finite (mantissa : Nat) (exponent : Int)
deriving DecidableEq, Repr

namespace Binary

variable {f : Format}

/-! ## The packed form -/

/-- Cut the packed form into fields; bits above the sign are dropped. -/
def ofBits (f : Format) (bits : Nat) : Binary f where
  negative := bits / f.fractions / f.exponents % 2 == 1
  exponent := ⟨bits / f.fractions % f.exponents, Nat.mod_lt _ (pow2_pos _)⟩
  fraction := ⟨bits % f.fractions, Nat.mod_lt _ (pow2_pos _)⟩

/-- The packed form: sign, exponent and fraction from the highest bit down. -/
def toBits (x : Binary f) : Nat :=
  (x.negative.toNat * f.exponents + x.exponent) * f.fractions + x.fraction

/-- The number of a sign whose remaining bits are `code`; a `code` past the largest finite number
is the infinity of that sign. -/
def ofCode (f : Format) (negative : Bool) (code : Nat) : Binary f :=
  { ofBits f (min code (f.topExponent * f.fractions)) with negative := negative }

/-- Zero with a clear sign. -/
def zero (f : Format) : Binary f := ofCode f false 0

/-- The NaN whose fraction has its highest bit set and no other. -/
def nan (f : Format) : Binary f :=
  ofBits f (f.topExponent * f.fractions + pow2 (f.fractionBits - 1))

/-- The infinity of a sign. -/
def infinity (f : Format) (negative : Bool) : Binary f :=
  ofCode f negative (f.topExponent * f.fractions)

/-! ## Reading a number -/

/-- The all-ones exponent marks the infinities (no fraction) and the NaNs; the zero exponent drops
the leading one that every other exponent adds to the fraction. -/
def magnitude (x : Binary f) : Magnitude :=
  if x.exponent.val = f.topExponent then
    if x.fraction.val = 0 then .infinite else .nan
  else if x.exponent.val = 0 then
    .finite x.fraction f.leastExponent
  else
    .finite (f.fractions + x.fraction) (f.leastExponent + (x.exponent.val - 1 : Nat))

def isNaN (x : Binary f) : Bool := x.magnitude == .nan

def isFinite (x : Binary f) : Bool :=
  match x.magnitude with
  | .finite .. => true
  | _ => false

/-- One representative for all NaNs and one for both zeros; every other number stands for
itself. -/
def canonical (x : Binary f) : Binary f :=
  match x.magnitude with
  | .nan => nan f
  | .finite 0 _ => zero f
  | _ => x

/-- Sameness of script numbers: a NaN is the same as any NaN, and the zeros are the same. -/
def same (x y : Binary f) : Bool := x.canonical == y.canonical

/-- Give a natural number a sign. -/
def signed (negative : Bool) (n : Nat) : Int := if negative then -n else n

/-- The integer that the number is exactly, if it is one. -/
def integral? (x : Binary f) : Option Int :=
  match x.magnitude with
  | .finite m (.ofNat e) => some (signed x.negative (m * pow2 e))
  | .finite m (.negSucc e) =>
    if m % pow2 (e + 1) = 0 then some (signed x.negative (m / pow2 (e + 1))) else none
  | _ => none

/-! ## Rounding -/

/-- The quotient `n / 2 ^ k` to the nearest natural number, a tie to the even one. -/
def roundShift (n k : Nat) : Nat :=
  let low := n / pow2 k
  let rest := 2 * (n % pow2 k)
  if rest < pow2 k ∨ (rest = pow2 k ∧ low % 2 = 0) then low else low + 1

/-- The number of binary digits of `n`. -/
def bitLength (n : Nat) : Nat := if n = 0 then 0 else n.log2 + 1

/-- The nearest number to `mantissa * 2 ^ exponent`, ties to even. The last place kept is the one
that leaves as many digits as the format has, or the subnormal one if that is higher. A mantissa
that rounds up to the next power of two carries into the exponent field by plain addition, and past
the largest finite number into the infinity. -/
def round (f : Format) (negative : Bool) (mantissa : Nat) (exponent : Int) : Binary f :=
  let top := exponent + bitLength mantissa - (f.fractionBits + 1)
  let place := max top f.leastExponent
  let kept :=
    if place ≤ exponent then mantissa * pow2 (exponent - place).toNat
    else roundShift mantissa (place - exponent).toNat
  if kept = 0 then ofCode f negative 0
  else ofCode f negative (kept + (place - f.leastExponent).toNat * f.fractions)

/-- The nearest number of another format. A NaN stays a NaN and an infinity keeps its sign. -/
def convert (g : Format) (x : Binary f) : Binary g :=
  match x.magnitude with
  | .nan => nan g
  | .infinite => infinity g x.negative
  | .finite m e => round g x.negative m e

/-- The 64-bit number of the same value. -/
def widen (x : Binary32) : Binary64 := convert Format.double x

/-- The nearest 32-bit number. -/
def narrow (x : Binary64) : Binary32 := convert Format.single x

end Binary

end ScriptBridge
