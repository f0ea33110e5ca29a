import ScriptBridge.Encoding.Strict

/-!
# The open encoder

A host value of unknown shape as a script value, by the conventions of JSON: a float that is an
integer becomes one, and a map becomes a dict whose keys stand in the order of their texts, so that
equal maps always give the same dict. Structs have no open form.

- `openNumber`: a float as a script number.
- `Value.sortKey`: what keys are ordered by, the plain text first and the printed form second.
- `HostTree.openAt`: the encoder, below a number of containers.
- `encodeOpen`, `encodeOpenDict`, `encodeOpenList`: a whole value, a map, a sequence.
-/

namespace ScriptBridge

/-- A float as a script number: the integer that it is, else itself. -/
def openNumber (x : Binary64) : Value :=
  match x.integral? with
  | some n => .int n
  | none => .float x

/-- The texts that a key is ordered by. The second tells apart keys that look alike, such as a
number and its digits as text. -/
def Value.sortKey (v : Value) : String × String := (v.str, v.repr)

/-- Whether an entry may stand before another. Texts are ordered by code point. -/
def Value.entryLe (a b : Value × Value) : Bool :=
  let (s, r) := a.1.sortKey
  let (t, q) := b.1.sortKey
  if s == t then decide (r ≤ q) else decide (s ≤ t)

/-- Insert entries that have been put in order, each failure located at its key. -/
def Dict.insertSorted : Dict → List (Value × Value) → Except ConvertError Dict
  | dict, [] => .ok dict
  | dict, (key, value) :: rest => do
    let (dict, _) ← ConvertError.locate (.key key) (ConvertError.lift (dict.insert key value))
    Dict.insertSorted dict rest

/-- A dict of entries in the order of their keys. -/
def Dict.ofUnsorted (entries : List (Value × Value)) : Except ConvertError Dict :=
  Dict.insertSorted [] (entries.mergeSort Value.entryLe)

namespace HostTree

mutual

/-- The value of a tree that `depth` containers enclose. -/
def openAt : HostTree → Nat → Except ConvertError Value
  | nil, depth => guardDepth depth (.ok .null)
  | bool b, depth => guardDepth depth (.ok (.bool b))
  | signed n, depth => guardDepth depth (.ok (.int n))
  | unsigned n, depth => guardDepth depth (.ok (.int n))
  | big n, depth => guardDepth depth (.ok (.int n))
  | float x, depth => guardDepth depth (.ok (openNumber x))
  | str s, depth => guardDepth depth (.ok (.text s))
  | bytes bs, depth => guardDepth depth (.ok (.bytes bs))
  | callable c, depth => guardDepth depth (.ok (.callable c))
  | script v, depth => guardDepth depth (.ok v)
  | unsupported name, depth => guardDepth depth (.error (.unsupported name))
  | struct typeName _, depth => guardDepth depth (.error (.unsupported ("struct " ++ typeName)))
  | seq items, depth => guardDepth depth (return .list (← openItems items (depth + 1) 0))
  | map entries, depth =>
    guardDepth depth (return .dict (← Dict.ofUnsorted (← openEntries entries (depth + 1))))

/-- The values of items, the first of which has an index. -/
def openItems : List HostTree → Nat → Nat → Except ConvertError (List Value)
  | [], _, _ => .ok []
  | t :: rest, depth, index => do
    let item ← ConvertError.locate (.element .list index) (openAt t depth)
    let items ← openItems rest depth (index + 1)
    return item :: items

/-- The keys and values of entries in their own order, each key before its value. -/
def openEntries : List (HostTree × HostTree) → Nat → Except ConvertError (List (Value × Value))
  | [], _ => .ok []
  | (k, v) :: rest, depth => do
    let key ← ConvertError.locate .someKey (openAt k depth)
    let value ← ConvertError.locate (.entry key) (openAt v depth)
    let entries ← openEntries rest depth
    return (key, value) :: entries

end

end HostTree

/-- Encode a host value by the conventions of JSON. -/
def encodeOpen (tree : HostTree) : Except ConvertError Value := tree.openAt 0

/-- Encode a map; nothing else is a dict. -/
def encodeOpenDict : HostTree → Except ConvertError Dict
  | .map entries => do Dict.ofUnsorted (← HostTree.openEntries entries 1)
  | tree => .error (.wrongTarget tree.describe .dict)

/-- Encode the items of a sequence; nothing else is a list. -/
def encodeOpenList : HostTree → Except ConvertError (List Value)
  | .seq items => HostTree.openItems items 1 0
  | tree => .error (.wrongTarget tree.describe .list)

end ScriptBridge
