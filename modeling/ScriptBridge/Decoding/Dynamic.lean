import ScriptBridge.ConvertError
import ScriptBridge.Dynamic.Basic
import ScriptBridge.Host.Type

/-!
# Decoding to dynamic values

A script value as a dynamic one: the value chooses the shape, not the destination. Integers are
signed if they fit and unsigned if only that fits; lists, tuples and sets become lists. Callables
and records have no dynamic form.

- `ConvertError.wrongType`: a value of the wrong kind for a host type.
- `Value.dynamic`: the dynamic form of a value.
-/

namespace ScriptBridge

namespace ConvertError

/-- A script value that a host type cannot hold, both named. -/
def wrongType (v : Value) (t : HostType) : ConvertError :=
  mismatch ("script " ++ v.typeName) ("native " ++ t.expected)

end ConvertError

namespace Value

/-- An integer of at most 64 bits. -/
def dynamicInt (n : Int) : Except ConvertError Dynamic :=
  match Fixed.ofInt? .int64 n, Fixed.ofInt? .uint64 n with
  | some n, _ => .ok (.int n)
  | none, some n => .ok (.uint n)
  | none, none => .error (.outOfRange (toString n) "i64 or u64")

mutual

/-- The dynamic form of a value. -/
def dynamic : Value → Except ConvertError Dynamic
  | null => .ok .null
  | bool b => .ok (.bool b)
  | int n => dynamicInt n
  | float x => .ok (.float x)
  | text s => .ok (.str s)
  | bytes bs => .ok (.bytes bs)
  | list items => return .list (← dynamicItems .list items 0)
  | tuple items => return .list (← dynamicItems .tuple items 0)
  | set items => return .list (← dynamicItems .set items 0)
  | dict entries => return .ofEntries (← dynamicEntries entries)
  | callable c => .error (.wrongType (callable c) .dynamic)
  | record typeName attrs => .error (.wrongType (record typeName attrs) .dynamic)

/-- The dynamic forms of items, the first of which has an index. -/
def dynamicItems (container : Kind) : List Value → Nat → Except ConvertError (List Dynamic)
  | [], _ => .ok []
  | v :: rest, index => do
    let item ← ConvertError.locate (.element container index) (dynamic v)
    let items ← dynamicItems container rest (index + 1)
    return item :: items

/-- The dynamic forms of entries, each key before its value. -/
def dynamicEntries : List (Value × Value) → Except ConvertError (List (Dynamic × Dynamic))
  | [] => .ok []
  | (k, v) :: rest => do
    let key ← ConvertError.locate (.key k) (dynamic k)
    let value ← ConvertError.locate (.entry k) (dynamic v)
    let entries ← dynamicEntries rest
    return (key, value) :: entries

end

end Value

end ScriptBridge
