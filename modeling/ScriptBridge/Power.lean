/-!
# Powers of two

Powers of two as plain natural numbers: what widths of bit fields count. They are computed by
arithmetic on natural numbers and belong to no algebraic structure.

- `pow2`: the power, with its value, its sign and its recursion.
-/

namespace ScriptBridge

/-- How many bit strings of a length there are. -/
def pow2 (n : Nat) : Nat := Nat.pow 2 n

theorem pow2_zero : pow2 0 = 1 := rfl

theorem pow2_succ (n : Nat) : pow2 (n + 1) = 2 * pow2 n := Nat.mul_comm _ _

theorem pow2_pos (n : Nat) : 0 < pow2 n := Nat.two_pow_pos n

end ScriptBridge
