import ScriptBridge.Text.Identifier
import ScriptBridge.Text.Quoted
import ScriptBridge.Value.Same

/-!
# Building dicts, sets and records

The operations that keep the containers of a value well formed: keys and elements are hashable and
pairwise different, attribute names are identifiers and pairwise different.

- `ValueError`: why an operation refuses, with `ValueError.message`.
- `Dict.get?`, `Dict.insert`, `Dict.ofEntries`.
- `Elements.contains`, `Elements.insert`, `Elements.keep`.
- `Attributes.get?`, `Attributes.set`, `Attributes.ofPairs`.
-/

namespace ScriptBridge

/-- Why a container refuses a member. -/
inductive ValueError where
  /-- The key or element may change, or holds something that may. -/
  | unhashable (kind : Kind)
  /-- The attribute name is no identifier. -/
  | invalidAttribute (name : String)
deriving DecidableEq, Repr

namespace ValueError

def message : ValueError → String
  | unhashable kind => "unhashable type: '" ++ kind.typeName ++ "'"
  | invalidAttribute name => "invalid attribute name: " ++ String.ofList (Quoted.text name)

end ValueError

namespace Dict

def get? (d : Dict) (key : Value) : Option Value := Assoc.get? Value.same d key

/-- Look a text key up. -/
def getText? (d : Dict) (key : String) : Option Value := d.get? (.text key)

def contains (d : Dict) (key : Value) : Bool := Assoc.contains Value.same d key

/-- Store a value under a key. Returns the dict with the value that the key had before. -/
def insert (d : Dict) (key value : Value) : Except ValueError (Dict × Option Value) :=
  if key.hashable then .ok (Assoc.put Value.same d key value, d.get? key)
  else .error (.unhashable key.kind)

/-- Store entries one after the other, up to the first unhashable key. -/
def insertAll (d : Dict) : List (Value × Value) → Except ValueError Dict
  | [] => .ok d
  | (key, value) :: rest => do
    let (d, _) ← d.insert key value
    insertAll d rest

/-- The dict of some entries. -/
def ofEntries (entries : List (Value × Value)) : Except ValueError Dict := insertAll [] entries

end Dict

namespace Elements

def contains (s : Elements) (x : Value) : Bool := s.any (Value.same x)

/-- Add an element. Returns the set and whether the element is new to it. -/
def insert (s : Elements) (x : Value) : Except ValueError (Elements × Bool) :=
  if x.hashable then .ok (Distinct.insert Value.same s x, !s.contains x)
  else .error (.unhashable x.kind)

/-- Add an element, leaving the set as it is if the element is unhashable. -/
def keep (s : Elements) (x : Value) : Elements :=
  if x.hashable then Distinct.insert Value.same s x else s

/-- The distinct hashable members of a list, in the order in which they first occur. -/
def ofList (items : List Value) : Elements := items.foldl keep []

end Elements

namespace Attributes

/-- The type name of a record that no host type stands behind. -/
def anonymousTypeName : String := "struct"

def get? (attrs : Attributes) (name : String) : Option Value :=
  Assoc.get? (· == ·) attrs name

/-- Assign an attribute. -/
def set (attrs : Attributes) (name : String) (value : Value) : Except ValueError Attributes :=
  if isIdentifier name then .ok (Assoc.put (· == ·) attrs name value)
  else .error (.invalidAttribute name)

/-- Assign attributes one after the other, up to the first that is refused. -/
def setAll (attrs : Attributes) : List (String × Value) → Except ValueError Attributes
  | [] => .ok attrs
  | (name, value) :: rest => do
    let attrs ← attrs.set name value
    setAll attrs rest

/-- The attributes of some pairs. -/
def ofPairs (pairs : List (String × Value)) : Except ValueError Attributes := setAll [] pairs

end Attributes

end ScriptBridge
