import ScriptBridge.Assoc
import ScriptBridge.Binary
import ScriptBridge.Integer

/-!
# Dynamic host values

Host values of open shape, for a host that does not know beforehand what a script will hand it.
Integers are of 64 bits, signed ones and unsigned ones apart; maps have keys of any kind, in order.

- `Dynamic`: the values.
- `Dynamic.same`: equality, in which the order of map entries does not count.
- `Dynamic.asBool?` and its like, `Dynamic.get?`: reading a value as one of its kinds.
-/

namespace ScriptBridge

/-- A host value of open shape. -/
inductive Dynamic where
  | null
  | bool (b : Bool)
  | int (n : Fixed .int64)
  | uint (n : Fixed .uint64)
  | float (x : Binary64)
  | str (s : String)
  | bytes (bs : List UInt8)
  | list (items : List Dynamic)
  | map (entries : List (Dynamic × Dynamic))
deriving Inhabited

namespace Dynamic

mutual

/-- Equality of dynamic values. A signed integer never equals an unsigned one. Floats are equal as
script floats are: NaNs to each other, and the zeros too. -/
def same : Dynamic → Dynamic → Bool
  | null, null => true
  | bool a, bool b => a == b
  | int m, int n => m.val == n.val
  | uint m, uint n => m.val == n.val
  | float x, float y => x.same y
  | str s, str t => s == t
  | bytes as, bytes bs => as == bs
  | list as, list bs => eachSame as bs
  | map as, map bs => as.length == bs.length && entriesWithin as bs
  | _, _ => false

/-- Item by item, in order. -/
def eachSame : List Dynamic → List Dynamic → Bool
  | [], [] => true
  | a :: as, b :: bs => same a b && eachSame as bs
  | _, _ => false

/-- Every entry of the first list is found in the second, with the same value. -/
def entriesWithin : List (Dynamic × Dynamic) → List (Dynamic × Dynamic) → Bool
  | [], _ => true
  | (k, v) :: rest, bs =>
    (match bs.find? fun e => same k e.1 with
      | some e => same v e.2
      | none => false) && entriesWithin rest bs

end

/-- The map of some entries; of entries with one key the first key and the last value stay. -/
def ofEntries (entries : List (Dynamic × Dynamic)) : Dynamic := map (Assoc.putAll same [] entries)

/-! ## Reading a value as one of its kinds -/

def isNull : Dynamic → Bool
  | null => true
  | _ => false

def asBool? : Dynamic → Option Bool
  | bool b => some b
  | _ => none

/-- An integer of either sign as a signed one, if it fits. -/
def asSigned? : Dynamic → Option (Fixed .int64)
  | int n => some n
  | uint n => Fixed.ofInt? .int64 n.val
  | _ => none

/-- An integer of either sign as an unsigned one, if it fits. -/
def asUnsigned? : Dynamic → Option (Fixed .uint64)
  | int n => Fixed.ofInt? .uint64 n.val
  | uint n => some n
  | _ => none

def asFloat? : Dynamic → Option Binary64
  | float x => some x
  | _ => none

def asText? : Dynamic → Option String
  | str s => some s
  | _ => none

def asList? : Dynamic → Option (List Dynamic)
  | list items => some items
  | _ => none

def asMap? : Dynamic → Option (List (Dynamic × Dynamic))
  | map entries => some entries
  | _ => none

/-- Look a text key up in a map. -/
def get? (d : Dynamic) (key : String) : Option Dynamic :=
  d.asMap?.bind fun entries => Assoc.get? same entries (str key)

end Dynamic

end ScriptBridge
