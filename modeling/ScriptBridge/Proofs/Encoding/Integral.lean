import ScriptBridge.Encoding.Open
import ScriptBridge.Host.Tree
import ScriptBridge.Proofs.ExactValue

/-!
# Floats that become integers

The open encoder writes a float as the integer that it is, which for large floats is an integer of
hundreds of digits, and leaves every other float alone. A 32-bit float is widened first, so that the
question is asked of another number than the one that the host has. That the answer is the same
takes the exact values of both.

- `openNumber_eq_int_iff`, `openNumber_eq_float_iff`: when a number becomes an integer, and when it
  stays.
- `HostFloat`: the floats of the host, with their exact values.
- `encodeOpen_float`: what the open encoder makes of them.
-/

namespace ScriptBridge

theorem openNumber_eq_int_iff {x : Binary64} {n : Int} :
    openNumber x = .int n ↔ x.value? = some (n : ℚ) := by
  rw [← Binary.integral?_eq_some_iff, openNumber]
  cases x.integral? with
  | none => exact iff_of_false nofun nofun
  | some m => rw [Value.int.injEq, Option.some.injEq]

theorem openNumber_eq_float_iff {x : Binary64} :
    openNumber x = .float x ↔ ∀ n : Int, x.value? ≠ some (n : ℚ) := by
  simp only [ne_eq, ← Binary.integral?_eq_some_iff, ← Option.eq_none_iff_forall_ne_some, openNumber]
  cases x.integral? with
  | none => exact iff_of_true rfl rfl
  | some m => exact iff_of_false nofun nofun

/-- A float of the host, of either width. -/
inductive HostFloat where
  | single (x : Binary32)
  | double (x : Binary64)

namespace HostFloat

def host : HostFloat → HostValue
  | single x => .single x
  | double x => .double x

/-- The exact value, by the fields of the float's own format. -/
def value? : HostFloat → Option ℚ
  | single x => x.value?
  | double x => x.value?

/-- The 64-bit float that a script has for it. -/
def wide : HostFloat → Binary64
  | single x => x.widen
  | double x => x

theorem value?_wide (x : HostFloat) : x.wide.value? = x.value? := by
  cases x with
  | single x => exact x.value?_widen
  | double x => rfl

theorem encodeOpen_host (x : HostFloat) : encodeOpen x.host.tree = .ok (openNumber x.wide) := by
  cases x <;> rfl

end HostFloat

/-- **Floats as integers.** The open encoder makes a float the integer `n` exactly when the float is
finite and its value is `n`, whatever the size of `n`, so that both zeros become `0`. All other
floats, infinities and NaNs among them, stay floats bit for bit. So two floats that become the same
integer have the same value, even if they are of different widths. -/
theorem encodeOpen_float (x : HostFloat) :
    (∀ n : Int, encodeOpen x.host.tree = .ok (.int n) ↔ x.value? = some (n : ℚ)) ∧
      (encodeOpen x.host.tree = .ok (.float x.wide) ↔ ∀ n : Int, x.value? ≠ some (n : ℚ)) ∧
      ∀ (y : HostFloat) (n : Int), encodeOpen x.host.tree = .ok (.int n) →
        encodeOpen y.host.tree = .ok (.int n) → ∃ q, x.value? = some q ∧ y.value? = some q := by
  have hint (x : HostFloat) (n : Int) :
      encodeOpen x.host.tree = .ok (.int n) ↔ x.value? = some (n : ℚ) := by
    rw [x.encodeOpen_host, Except.ok.injEq, openNumber_eq_int_iff, x.value?_wide]
  refine ⟨hint x, ?_, fun y n hx hy => ⟨n, (hint x n).mp hx, (hint y n).mp hy⟩⟩
  rw [x.encodeOpen_host, Except.ok.injEq, openNumber_eq_float_iff, x.value?_wide]

/-- The hundredth power of two, of both widths. -/
theorem encodeOpen_float_power :
    encodeOpen (HostFloat.single (.ofBits .single (227 * 2 ^ 23))).host.tree =
        .ok (.int 1267650600228229401496703205376) ∧
      encodeOpen (HostFloat.double (.ofBits .double (1123 * 2 ^ 52))).host.tree =
        .ok (.int 1267650600228229401496703205376) ∧
      ∃ q, (HostFloat.single (.ofBits .single (227 * 2 ^ 23))).value? = some q ∧
        (HostFloat.double (.ofBits .double (1123 * 2 ^ 52))).value? = some q := by
  have hsingle : encodeOpen (HostFloat.single (.ofBits .single (227 * 2 ^ 23))).host.tree =
      .ok (.int 1267650600228229401496703205376) := rfl
  have hdouble : encodeOpen (HostFloat.double (.ofBits .double (1123 * 2 ^ 52))).host.tree =
      .ok (.int 1267650600228229401496703205376) := rfl
  exact ⟨hsingle, hdouble, (encodeOpen_float _).2.2 _ _ hsingle hdouble⟩

end ScriptBridge
