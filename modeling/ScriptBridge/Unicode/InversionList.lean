/-!
# Inversion lists

A set of code points as the ascending list of the points where membership changes: the first point
is in the set, the second is the first one after it that is not, and so on.

- `InversionList.contains`: a point is in the set when an odd number of changes lie at or below it.
-/

namespace ScriptBridge.Unicode

/-- The points, in ascending order, where membership in a set of code points changes. -/
abbrev InversionList := List Nat

/-- Whether the set holds a code point. -/
def InversionList.contains (changes : InversionList) (point : Nat) : Bool :=
  (changes.takeWhile (· ≤ point)).length % 2 == 1

end ScriptBridge.Unicode
