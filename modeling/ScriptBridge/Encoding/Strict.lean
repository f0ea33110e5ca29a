import ScriptBridge.ConvertError
import ScriptBridge.Encoding.Target
import ScriptBridge.Host.Tree

/-!
# The strict encoder

A host value as a script value of the kind that the caller asks for. Scalars go over one to one, a
sequence becomes a list, tuple or set, a map a dict in its own order, and a struct a record. What
stands inside a container is encoded to whatever is natural for it.

- `maxDepth`: how many containers may enclose a value.
- `HostTree.encodeAt`: the encoder, below a number of containers. `HostTree.encodeAt_seq`: what it
  makes of items.
- `encode`: a whole value.
- `encodeRecord`, `structAttributes`, `encodeSetCounting`: the encoder for one kind, with the parts
  of its result.
-/

namespace ScriptBridge

/-- How many containers may enclose a value. -/
def maxDepth : Nat := 256

namespace ConvertError

/-- A host value of one shape where a target asks for another kind. -/
def wrongTarget (found : String) (target : Target) : ConvertError := mismatch found target.describe

end ConvertError

/-- Refuse what is enclosed by too many containers, whatever it is. Inlined, so that nothing is
encoded before the depth is known to be allowed. -/
@[macro_inline] def guardDepth {α : Type} (depth : Nat) (result : Except ConvertError α) :
    Except ConvertError α :=
  if maxDepth < depth then .error (.tooDeep maxDepth) else result

namespace HostTree

/-- A value that is no container, if the target asks for its kind. -/
def leaf (tree : HostTree) (target : Target) (v : Value) : Except ConvertError Value :=
  if target.accepts v.kind then .ok v else .error (.wrongTarget tree.describe target)

mutual

/-- The value of a tree that `depth` containers enclose. -/
def encodeAt : HostTree → Target → Nat → Except ConvertError Value
  | nil, target, depth => guardDepth depth (leaf nil target .null)
  | bool b, target, depth => guardDepth depth (leaf (bool b) target (.bool b))
  | signed n, target, depth => guardDepth depth (leaf (signed n) target (.int n))
  | unsigned n, target, depth => guardDepth depth (leaf (unsigned n) target (.int n))
  | big n, target, depth => guardDepth depth (leaf (big n) target (.int n))
  | float x, target, depth => guardDepth depth (leaf (float x) target (.float x))
  | str s, target, depth => guardDepth depth (leaf (str s) target (.text s))
  | bytes bs, target, depth => guardDepth depth (leaf (bytes bs) target (.bytes bs))
  | callable c, target, depth => guardDepth depth (leaf (callable c) target (.callable c))
  | script v, target, depth => guardDepth depth (leaf (script v) target v)
  | unsupported name, _, depth => guardDepth depth (.error (.unsupported name))
  | seq items, target, depth =>
    guardDepth depth <|
      match target.ofItems? with
      | some build => return build (← encodeItems items (depth + 1) 0)
      | none => .error (.wrongTarget "native sequence" target)
  | map entries, target, depth =>
    guardDepth depth <|
      if target.accepts .dict then return .dict (← encodeEntries entries (depth + 1) [])
      else .error (.wrongTarget "native map" target)
  | struct typeName fields, target, depth =>
    guardDepth depth <|
      if target.accepts .record then
        return .record typeName (← encodeFields typeName fields (depth + 1) [])
      else .error (.wrongTarget ("native struct " ++ typeName) target)

/-- The values of items, the first of which has an index. -/
def encodeItems : List HostTree → Nat → Nat → Except ConvertError (List Value)
  | [], _, _ => .ok []
  | t :: rest, depth, index => do
    let item ← ConvertError.locate (.item index) (encodeAt t .any depth)
    let items ← encodeItems rest depth (index + 1)
    return item :: items

/-- A dict with the values of entries, each key before its value. -/
def encodeEntries : List (HostTree × HostTree) → Nat → Dict → Except ConvertError Dict
  | [], _, dict => .ok dict
  | (k, v) :: rest, depth, dict => do
    let key ← ConvertError.locate .someKey (encodeAt k .any depth)
    let value ← ConvertError.locate (.entry key) (encodeAt v .any depth)
    let (dict, _) ← ConvertError.locate (.key key) (ConvertError.lift (dict.insert key value))
    encodeEntries rest depth dict

/-- Attributes with the values of fields. -/
def encodeFields (typeName : String) :
    List (String × HostTree) → Nat → Attributes → Except ConvertError Attributes
  | [], _, attrs => .ok attrs
  | (name, t) :: rest, depth, attrs => do
    let value ← ConvertError.locate (.attr typeName name) (encodeAt t .any depth)
    let attrs ← ConvertError.lift (attrs.set name value)
    encodeFields typeName rest depth attrs

end

/-- A sequence for a target that items can be made into. -/
theorem encodeAt_seq {items : List HostTree} {target : Target} {build : List Value → Value}
    (h : target.ofItems? = some build) (depth : Nat) :
    encodeAt (seq items) target depth =
      guardDepth depth (do return build (← encodeItems items (depth + 1) 0)) := by
  rw [encodeAt, h]

end HostTree

/-- Encode a host value. -/
def encode (tree : HostTree) (target : Target) : Except ConvertError Value := tree.encodeAt target 0

/-- Encode a struct, and return the type name and attributes of the record. -/
def encodeRecord (tree : HostTree) : Except ConvertError (String × Attributes) := do
  match ← encode tree .record with
  | .record typeName attrs => .ok (typeName, attrs)
  | v => .error (.wrongTarget ("script " ++ v.typeName) .record)

/-- The attributes of an encoded struct. -/
def structAttributes (tree : HostTree) : Except ConvertError Attributes :=
  return (← encodeRecord tree).2

/-- Encode a sequence as a set, and count the items that the set does not hold. A value that is a
script set already loses nothing. -/
def encodeSetCounting (tree : HostTree) : Except ConvertError (Elements × Nat) := do
  match tree with
  | .seq items =>
    let items ← HostTree.encodeItems items 1 0
    let set := Elements.ofList items
    .ok (set, items.length - set.length)
  | tree =>
    match ← encode tree .set with
    | .set set => .ok (set, 0)
    | v => .error (.wrongTarget ("script " ++ v.typeName) .set)

end ScriptBridge
