import ScriptBridge.Decimal.Shortest

/-!
# How a decimal is laid out

A decimal is written positionally or with an exponent, by the power of ten of its leading digit.
Positional text always has a point, so it never reads as an integer; exponent text has one only
between digits.

- `Decimal.leading`: the power of ten of the leading digit.
- `Decimal.positional`, `Decimal.scientific`: the two layouts.
- `FloatStyle`: which way ties between digits go, where positional layout begins and whether an
  exponent can carry a plus sign.
- `FloatStyle.write?`: the text of a finite number.
-/

namespace ScriptBridge

namespace Decimal

/-- The digits, most significant first. -/
def digitChars (d : Decimal) : List Char := Nat.toDigits 10 d.digits

/-- The power of ten that the leading digit counts. -/
def leading (d : Decimal) : Int := d.exponent + d.digitChars.length - 1

/-- Digits around a point, with zeros on either side where the digits do not reach it. -/
def positional (d : Decimal) : List Char :=
  match d.exponent with
  | .ofNat k => d.digitChars ++ List.replicate k '0' ++ ['.', '0']
  | .negSucc k =>
    let cs := d.digitChars
    if k + 1 < cs.length then
      cs.take (cs.length - (k + 1)) ++ '.' :: cs.drop (cs.length - (k + 1))
    else
      '0' :: '.' :: List.replicate (k + 1 - cs.length) '0' ++ cs

/-- The power of ten of the leading digit, with a plus sign before it where one is wanted and no
minus sign stands. -/
def exponentChars (plus : Bool) (d : Decimal) : List Char :=
  let text := (toString d.leading).toList
  if plus && 0 ≤ d.leading then '+' :: text else text

/-- One digit, the others behind a point, and the power of ten of the first. -/
def scientific (plus : Bool) (d : Decimal) : List Char :=
  let fraction := match d.digitChars with
    | [] => []
    | [c] => [c]
    | c :: rest => c :: '.' :: rest
  fraction ++ 'e' :: d.exponentChars plus

end Decimal

/-- A way to write floating-point numbers. -/
structure FloatStyle where
  /-- Where a number lies halfway between two equally short decimals. -/
  tie : Tie
  /-- The least leading power of ten that is written positionally, if there is a least. -/
  leastPositional : Option Int
  /-- Whether an exponent that is not negative has a plus sign. -/
  plus : Bool
deriving DecidableEq, Repr

namespace FloatStyle

/-- From this leading power of ten on, numbers are written with an exponent. -/
def scientificFrom : Int := 16

/-- Whether a leading power of ten is written positionally. -/
def isPositional (style : FloatStyle) (leading : Int) : Bool :=
  leading < scientificFrom &&
    match style.leastPositional with
    | none => true
    | some least => least ≤ leading

/-- The text of a finite number: the sign, zero's included, before the laid out magnitude. Nothing
for the others, whose names are up to the caller. -/
def write? {f : Format} (style : FloatStyle) (x : Binary f) : Option (List Char) :=
  (x.shortest? style.tie).map fun d =>
    let text := if style.isPositional d.leading then d.positional else d.scientific style.plus
    if x.negative then '-' :: text else text

end FloatStyle

end ScriptBridge
