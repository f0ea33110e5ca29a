import ScriptBridge.Value.Container

/-!
# Host functions

What stands behind a callable. The handle itself carries no code: a host keeps its functions in a
registry, and a call looks the handle up there.

- `HostFunction`: positional and keyword arguments to a value, or a failure in the host's words.
- `Registry.call`: call the function behind a handle.
-/

namespace ScriptBridge

/-- A function of the host, on positional and keyword arguments. -/
abbrev HostFunction := List Value → List (String × Value) → Except String Value

/-- Which function stands behind a handle. -/
abbrev Registry := Callable → HostFunction

/-- Call the function behind a handle. -/
def Registry.call (host : Registry) (c : Callable) (args : List Value)
    (kwargs : List (String × Value)) : Except String Value :=
  host c args kwargs

end ScriptBridge
