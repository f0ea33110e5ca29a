import ScriptBridge.ConvertError
import ScriptBridge.Json

/-!
# The open decoder

Any script value as a JSON document. What documents know goes over as it is; tuples become arrays,
and everything else, integers beyond 64 signed bits included, becomes its printed form. Only a dict
with a key that is no text has no document.

- `Value.document`: the document of a value.
- `decodeOpen`, `decodeOpenMap`, `decodeOpenList`: a value, a dict, a list.
-/

namespace ScriptBridge

namespace Value

/-- The document of an integer. -/
def intDocument (n : Int) : Json :=
  match Fixed.ofInt? .int64 n with
  | some n => .int (.ofSigned n)
  | none => .str (int n).repr

/-- The document of a float. -/
def floatDocument (x : Binary64) : Json :=
  match JsonFloat.ofBinary? x with
  | some x => .float x
  | none => .str (float x).repr

mutual

/-- The document of a value. -/
def document : Value → Except ConvertError Json
  | null => .ok .null
  | bool b => .ok (.bool b)
  | int n => .ok (intDocument n)
  | float x => .ok (floatDocument x)
  | text s => .ok (.str s)
  | list items => return .arr (← itemDocuments .list items 0)
  | tuple items => return .arr (← itemDocuments .tuple items 0)
  | dict entries => return .obj (← memberDocuments entries)
  | bytes bs => .ok (.str (bytes bs).repr)
  | set items => .ok (.str (set items).repr)
  | callable c => .ok (.str (callable c).repr)
  | record typeName attrs => .ok (.str (record typeName attrs).repr)

/-- The documents of items, the first of which has an index. -/
def itemDocuments (container : Kind) : List Value → Nat → Except ConvertError (List Json)
  | [], _ => .ok []
  | v :: rest, index => do
    let item ← ConvertError.locate (.element container index) (document v)
    let items ← itemDocuments container rest (index + 1)
    return item :: items

/-- The members of dict entries. Keys of a dict are pairwise different, so their texts are too. -/
def memberDocuments : List (Value × Value) → Except ConvertError (List (String × Json))
  | [] => .ok []
  | (k, v) :: rest =>
    match k with
    | text name => do
      let value ← ConvertError.locate (.entry (text name)) (document v)
      let members ← memberDocuments rest
      return (name, value) :: members
    | k => .error (.mismatch ("script " ++ k.typeName ++ " dict key") "native string key")

end

end Value

/-- Decode a script value into a document. -/
def decodeOpen (v : Value) : Except ConvertError Json := v.document

/-- Decode a dict into the members of an object; nothing else is an object. -/
def decodeOpenMap : Value → Except ConvertError (List (String × Json))
  | .dict entries => Value.memberDocuments entries
  | v => .error (.mismatch ("script " ++ v.typeName) "native JSON object")

/-- Decode a list into the items of an array; nothing else, not even a tuple, is an array. -/
def decodeOpenList : Value → Except ConvertError (List Json)
  | .list items => Value.itemDocuments .list items 0
  | v => .error (.mismatch ("script " ++ v.typeName) "native JSON array")

end ScriptBridge
