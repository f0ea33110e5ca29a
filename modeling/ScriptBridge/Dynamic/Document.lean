import ScriptBridge.Decimal.Layout
import ScriptBridge.Dynamic.Basic
import ScriptBridge.Json

/-!
# Dynamic values as JSON documents

Every dynamic value but a map is a document as it stands: bytes are an array of integers, and a
float that no document can hold is null. A map is an object when each of its keys has a text.

- `DocumentError`: why a key has no text.
- `Dynamic.memberName`: the text of a key.
- `Dynamic.document`: the document of a value, or the first key without a text.
-/

namespace ScriptBridge

/-- Why a map is no object. -/
inductive DocumentError where
  /-- The key is neither text nor a scalar with a text. -/
  | keyNotText
  /-- The key is an infinity or a NaN. -/
  | keyNotFinite
deriving DecidableEq, Repr

namespace DocumentError

def message : DocumentError → String
  | keyNotText => "key must be a string"
  | keyNotFinite => "float key must be finite (got NaN or +/-inf)"

end DocumentError

namespace Dynamic

/-- Floats as member names: the fewest digits that read back, a half to the even digit, and numbers
below `10 ^ (-5)` with an exponent. Every exponent has a sign. -/
def memberStyle : FloatStyle := ⟨.even, some (-5), true⟩

/-- The member name that a map key becomes. -/
def memberName : Dynamic → Except DocumentError String
  | str s => .ok s
  | bool b => .ok (if b then "true" else "false")
  | int n => .ok (toString n.val)
  | uint n => .ok (toString n.val)
  | float x =>
    match memberStyle.write? x with
    | some digits => .ok (String.ofList digits)
    | none => .error .keyNotFinite
  | _ => .error .keyNotText

/-- A float as a document. -/
def floatDocument (x : Binary64) : Json :=
  match JsonFloat.ofBinary? x with
  | some x => .float x
  | none => .null

mutual

/-- The document of a dynamic value. -/
def document : Dynamic → Except DocumentError Json
  | null => .ok .null
  | bool b => .ok (.bool b)
  | int n => .ok (.int (.ofSigned n))
  | uint n => .ok (.int (.ofUnsigned n))
  | float x => .ok (floatDocument x)
  | str s => .ok (.str s)
  | bytes bs => .ok (.arr (bs.map fun b => .int (.ofByte b)))
  | list items => return .arr (← itemDocuments items)
  | map entries => return .ofMembers (← memberDocuments entries)

/-- The documents of items. -/
def itemDocuments : List Dynamic → Except DocumentError (List Json)
  | [] => .ok []
  | d :: rest => do
    let item ← document d
    let items ← itemDocuments rest
    return item :: items

/-- The members of map entries, in order; keys with one text are one member later on. -/
def memberDocuments : List (Dynamic × Dynamic) → Except DocumentError (List (String × Json))
  | [] => .ok []
  | (k, v) :: rest => do
    let name ← memberName k
    let value ← document v
    let members ← memberDocuments rest
    return (name, value) :: members

end

end Dynamic

end ScriptBridge
