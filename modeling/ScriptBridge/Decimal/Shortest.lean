import ScriptBridge.Binary

/-!
# The shortest decimal that reads back

Among the decimals that lie in a number's rounding interval, the one on the coarsest power-of-ten
grid is chosen, and of the points of that grid in the interval the one nearest to the number.

Everything is scaled to natural numbers first: a finite number and the two ends of its interval are
multiples of one power of ten, so a grid point is in the interval or not by comparing naturals.

- `Decimal`: `digits * 10 ^ exponent`.
- `Interval`: a number with the ends of its rounding interval on one scale.
- `Interval.gridPoint?`: the nearest point of a grid, if one lies in the interval.
- `Interval.shortest`: the search, from the coarsest grid down to the number itself.
- `Binary.shortest?`: the shortest decimal of a finite number's magnitude.
-/

namespace ScriptBridge

/-- The number `digits * 10 ^ exponent`. -/
structure Decimal where
  digits : Nat
  exponent : Int
deriving DecidableEq, Repr

/-- Which neighbour an exact half goes to. -/
inductive Tie where
  /-- The one farther from zero. -/
  | away
  /-- The one with an even last digit. -/
  | even
deriving DecidableEq, Repr

/-- A number between the ends of the interval of reals that round to it, all three counted in the
same unit. -/
structure Interval where
  low : Nat
  mid : Nat
  high : Nat
  /-- Whether the ends themselves round to the number. -/
  closed : Bool
deriving DecidableEq, Repr

namespace Interval

/-- The same interval in a unit `factor` times smaller. -/
def scale (i : Interval) (factor : Nat) : Interval :=
  { i with low := i.low * factor, mid := i.mid * factor, high := i.high * factor }

/-- Whether the real `n` rounds to the number. -/
def contains (i : Interval) (n : Nat) : Bool :=
  if i.closed then i.low ≤ n && n ≤ i.high else i.low < n && n < i.high

/-- The multiple of `unit` in the interval that is nearest to the number. Only the two neighbours of
the number on the grid matter: any other point of the grid in the interval is farther away, and the
neighbour on its side then lies in the interval too. -/
def gridPoint? (i : Interval) (tie : Tie) (unit : Nat) : Option Nat :=
  let below := i.mid / unit
  let above := below + 1
  match i.contains (below * unit), i.contains (above * unit) with
  | false, false => none
  | true, false => some below
  | false, true => some above
  | true, true =>
    let toBelow := i.mid - below * unit
    let toAbove := above * unit - i.mid
    if toBelow < toAbove then some below
    else if toAbove < toBelow then some above
    else match tie with
      | .away => some above
      | .even => some (if below % 2 = 0 then below else above)

/-- The point found on the coarsest grid, no coarser than `10 ^ power`, that has one in the
interval. The finest grid holds the number itself. -/
def shortest (i : Interval) (tie : Tie) : (power : Nat) → Decimal
  | 0 => ⟨i.mid, 0⟩
  | power + 1 =>
    match i.gridPoint? tie (Nat.pow 10 (power + 1)) with
    | some n => ⟨n, (power + 1 : Nat)⟩
    | none => i.shortest tie power

end Interval

namespace Binary

variable {f : Format}

/-- The rounding interval of `mantissa * 2 ^ exponent`, in quarters of the last place. The number
below is half as far away when the mantissa is the least of its exponent, unless that exponent is
the least of the format. -/
def quarters (f : Format) (mantissa : Nat) (exponent : Int) : Interval where
  low :=
    if mantissa = f.fractions ∧ f.leastExponent < exponent then 4 * mantissa - 1
    else 4 * mantissa - 2
  mid := 4 * mantissa
  high := 4 * mantissa + 2
  closed := mantissa % 2 = 0

/-- The shortest decimal that rounds to `mantissa * 2 ^ exponent`. A quarter of the last place is
`2 ^ (exponent - 2)`: a natural number, or `5 ^ k` units of `10 ^ (-k)`. -/
def shortestOf (f : Format) (tie : Tie) (mantissa : Nat) (exponent : Int) : Decimal :=
  match exponent - 2 with
  | .ofNat k => search ((quarters f mantissa exponent).scale (pow2 k)) 0
  | .negSucc k => search ((quarters f mantissa exponent).scale (Nat.pow 5 (k + 1))) (.negSucc k)
where
  /-- Search from the first power of ten above the number, in units of `10 ^ base`. -/
  search (i : Interval) (base : Int) : Decimal :=
    let found := i.shortest tie (Nat.toDigits 10 i.mid).length
    { found with exponent := found.exponent + base }

/-- The shortest decimal that reads back as a finite number, its sign aside. -/
def shortest? (tie : Tie) (x : Binary f) : Option Decimal :=
  match x.magnitude with
  | .finite 0 _ => some ⟨0, 0⟩
  | .finite m e => some (shortestOf f tie m e)
  | _ => none

end Binary

end ScriptBridge
