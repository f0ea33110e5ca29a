import ScriptBridge.Integer

/-!
# Host types

The types that a script value can be converted to. Structs are named here and declared in a schema,
so that they may contain themselves.

- `SequenceKind`, `MappingKind`: the containers.
- `HostType`: the types.
- `HostType.expected`: how error messages call a type.
-/

namespace ScriptBridge

/-- The host's sequences. -/
inductive SequenceKind where
  /-- Any number of items. -/
  | vector
  /-- As many items as the type says. -/
  | array (length : Nat)
  /-- Different items in no particular order. -/
  | hashSet
  /-- Different items in ascending order. -/
  | sortedSet
deriving DecidableEq, Repr

/-- The host's maps. -/
inductive MappingKind where
  /-- No particular order. -/
  | hashMap
  /-- Keys in ascending order. -/
  | sortedMap
  /-- Keys in the order of insertion. -/
  | orderedMap
deriving DecidableEq, Repr

/-- A type of host values. -/
inductive HostType where
  | bool
  | int (t : IntType)
  /-- An integer type whose numbers are reduced instead of refused. -/
  | wrapping (t : IntType)
  | bigInt
  | single
  | double
  | string
  | char
  /-- A byte string, as opposed to a sequence of small integers. -/
  | bytes
  | callable
  /-- Script values as they are. -/
  | script
  | dynamic
  | json
  /-- A value or nothing. -/
  | option (t : HostType)
  /-- A value behind a pointer, which is the value as far as conversions are concerned. -/
  | pointer (t : HostType)
  | sequence (kind : SequenceKind) (item : HostType)
  | mapping (kind : MappingKind) (key value : HostType)
  /-- A struct, by its name in the schema. -/
  | struct (name : String)
deriving DecidableEq, Repr

namespace SequenceKind

/-- A sequence type in messages, around the name of its items. -/
def expected (kind : SequenceKind) (item : String) : String :=
  match kind with
  | vector => "Vec<" ++ item ++ ">"
  | array length => "[" ++ item ++ "; " ++ toString length ++ "]"
  | hashSet => "HashSet<" ++ item ++ ">"
  | sortedSet => "BTreeSet<" ++ item ++ ">"

end SequenceKind

namespace MappingKind

/-- A map type in messages, around the names of its keys and values. -/
def expected (kind : MappingKind) (key value : String) : String :=
  let name := match kind with
    | hashMap => "HashMap"
    | sortedMap => "BTreeMap"
    | orderedMap => "IndexMap"
  name ++ "<" ++ key ++ ", " ++ value ++ ">"

end MappingKind

namespace HostType

/-- A type in error messages. -/
def expected : HostType → String
  | bool => "bool"
  | int t => t.name
  | wrapping t => "Wrapping<" ++ t.name ++ ">"
  | bigInt => "BigInt"
  | single => "f32"
  | double => "f64"
  | string => "String"
  | char => "char"
  | bytes => "ByteString"
  | callable => "callable"
  | script => "script value"
  | dynamic => "dynamic value"
  | json => "JSON value"
  | option t => "Option<" ++ t.expected ++ ">"
  | pointer t => t.expected
  | sequence kind item => kind.expected item.expected
  | mapping kind key value => kind.expected key.expected value.expected
  | struct name => "struct " ++ name

end HostType

end ScriptBridge
