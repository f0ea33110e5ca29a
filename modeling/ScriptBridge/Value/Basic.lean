import ScriptBridge.Binary
import ScriptBridge.Integer

/-!
# Script values

The closed set of values that scripts hold, and their kinds.

- `Kind`: the kind of a value, with the name that scripts see.
- `Callable`: a handle to a host function. Handles are equal when both parts agree; the number tells
  two functions of one name apart.
- `Value`: the values. Dicts, sets and records are lists in insertion order; that their keys are
  hashable and pairwise different is kept by the operations of `Value.Container`.
- `Value.hashable`: whether a value may be a dict key or a set element.
-/

namespace ScriptBridge

/-- The kinds of script values. -/
inductive Kind where
  | null
  | bool
  | int
  | float
  | text
  | bytes
  | list
  | tuple
  | dict
  | set
  | callable
  | record
deriving DecidableEq, Repr

namespace Kind

/-- Every kind once. -/
def all : List Kind :=
  [null, bool, int, float, text, bytes, list, tuple, dict, set, callable, record]

/-- The name of a kind, as scripts see it. -/
def typeName : Kind → String
  | null => "NoneType"
  | bool => "bool"
  | int => "int"
  | float => "float"
  | text => "string"
  | bytes => "bytes"
  | list => "list"
  | tuple => "tuple"
  | dict => "dict"
  | set => "set"
  | callable => "function"
  | record => "struct"

end Kind

/-- A handle to a host function. -/
structure Callable where
  name : String
  /-- Tells apart the functions that share a name. -/
  token : Nat
deriving DecidableEq, Repr

/-- A value of the scripting language. -/
inductive Value where
  | null
  | bool (b : Bool)
  /-- An integer of any size. -/
  | int (n : Int)
  | float (x : Binary64)
  | text (s : String)
  | bytes (bs : List UInt8)
  | list (items : List Value)
  | tuple (items : List Value)
  | dict (entries : List (Value × Value))
  | set (items : List Value)
  | callable (c : Callable)
  | record (typeName : String) (attrs : List (String × Value))
deriving Inhabited

/-- Dict entries in the order of first insertion. -/
abbrev Dict := List (Value × Value)

/-- Set elements in the order of insertion. -/
abbrev Elements := List Value

/-- Record attributes in the order of first assignment. -/
abbrev Attributes := List (String × Value)

namespace Value

/-- The kind of a value. -/
def kind : Value → Kind
  | null => .null
  | bool _ => .bool
  | int _ => .int
  | float _ => .float
  | text _ => .text
  | bytes _ => .bytes
  | list _ => .list
  | tuple _ => .tuple
  | dict _ => .dict
  | set _ => .set
  | callable _ => .callable
  | record .. => .record

/-- The name of a value's kind. -/
def typeName (v : Value) : String := v.kind.typeName

def isNull : Value → Bool
  | null => true
  | _ => false

/-! ## Hashability

Lists, dicts and sets can change, so they are no keys. Tuples and records cannot, but are keys only
when nothing inside them can. -/

mutual

/-- Whether a value may be a dict key or a set element. -/
def hashable : Value → Bool
  | list _ => false
  | dict _ => false
  | set _ => false
  | tuple items => allHashable items
  | record _ attrs => attrsHashable attrs
  | null => true
  | bool _ => true
  | int _ => true
  | float _ => true
  | text _ => true
  | bytes _ => true
  | callable _ => true

/-- Whether every item is hashable. -/
def allHashable : List Value → Bool
  | [] => true
  | v :: rest => hashable v && allHashable rest

/-- Whether every attribute's value is hashable. -/
def attrsHashable : List (String × Value) → Bool
  | [] => true
  | (_, v) :: rest => hashable v && attrsHashable rest

end

/-! ## Reading a value as one of its kinds -/

def asBool? : Value → Option Bool
  | bool b => some b
  | _ => none

def asInt? : Value → Option Int
  | int n => some n
  | _ => none

/-- An integer as one of a fixed-width type, when it is in range. -/
def asFixed? (t : IntType) (v : Value) : Option (Fixed t) := v.asInt?.bind (Fixed.ofInt? t)

def asFloat? : Value → Option Binary64
  | float x => some x
  | _ => none

def asText? : Value → Option String
  | text s => some s
  | _ => none

def asBytes? : Value → Option (List UInt8)
  | bytes bs => some bs
  | _ => none

/-- The items of a list or a tuple. -/
def asItems? : Value → Option (List Value)
  | list items => some items
  | tuple items => some items
  | _ => none

def asDict? : Value → Option Dict
  | dict entries => some entries
  | _ => none

def asSet? : Value → Option Elements
  | set items => some items
  | _ => none

/-- The type name of a record. -/
def asRecord? : Value → Option String
  | record typeName _ => some typeName
  | _ => none

def asCallable? : Value → Option Callable
  | callable c => some c
  | _ => none

end Value

end ScriptBridge
