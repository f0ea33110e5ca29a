import ScriptBridge.Decoding.Dynamic
import ScriptBridge.Decoding.Open
import ScriptBridge.Host.Order
import ScriptBridge.Host.Schema

/-!
# The typed decoder

A script value as a value of a host type. The type drives the conversion: it says which kinds of
values it can hold, and how their parts are converted.

- `HostType.through`: options and pointers, which take a value on behalf of the type inside them.
- `decodeLeaf`: types that hold a value as a whole, among them sequences that take bytes.
- `decode`: all types. Recursion is on the value; the type changes along the way.
- `decodeInto`: replace a stored value, unless the decoding fails.
-/

namespace ScriptBridge

/-- Take a value on behalf of the type inside options and pointers. Null is absence for the
outermost option, and every other value is present in all of them. -/
def HostType.through (isNull : Bool) (inner : HostType → Except ConvertError HostValue) :
    HostType → Except ConvertError HostValue
  | option t => if isNull then .ok .none else return .some (← t.through isNull inner)
  | pointer t => t.through isNull inner
  | t => inner t

/-- A character out of a text of one. -/
def decodeChar (s : String) : Except ConvertError HostValue :=
  match s.toList with
  | [c] => .ok (.char c)
  | cs => .error (.mismatch ("script string of length " ++ toString cs.length) "native char")

/-- The items of a sequence as one of a kind. Arrays take exactly their length. -/
def finishSequence (v : Value) (kind : SequenceKind) (item : HostType) (items : List HostValue) :
    Except ConvertError HostValue :=
  match kind with
  | .array length =>
    if items.length = length then .ok (.sequence kind items)
    else
      .error (.mismatch ("script " ++ v.typeName ++ " of length " ++ toString items.length)
        ("native " ++ (HostType.sequence kind item).expected))
  | kind => .ok (.sequence kind (kind.collect items))

/-- The part of a value that a type asks for, when the value is of the right kind. -/
def expectPart {α : Type} (v : Value) (t : HostType) : Option α → Except ConvertError α
  | some part => .ok part
  | none => .error (.wrongType v t)

/-- An integer of any size as one of a type. -/
def decodeFixed (t : IntType) (n : Int) : Except ConvertError HostValue :=
  match Fixed.ofInt? t n with
  | some n => .ok (.int t n)
  | none => .error (.outOfRange (toString n) t.name)

/-- Whether a sequence type takes bytes as its items. Sets do not, and the items have to be unsigned
integers of 8 bits themselves, not pointers to them. -/
def SequenceKind.takesBytes (kind : SequenceKind) (item : HostType) : Bool :=
  match kind with
  | vector => item == .int .byte
  | array _ => item == .int .byte
  | hashSet => false
  | sortedSet => false

/-- Decode a value into a type that takes it as a whole or not at all. -/
def decodeLeaf (v : Value) (t : HostType) : Except ConvertError HostValue :=
  match t with
  | .script => .ok (.script v)
  | .dynamic => return .dynamic (← v.dynamic)
  | .json => return .json (← v.document)
  | .bool => return .bool (← expectPart v t v.asBool?)
  | .int type => do decodeFixed type (← expectPart v t v.asInt?)
  | .wrapping type => return .wrapping type (.wrap type (← expectPart v t v.asInt?))
  | .bigInt => return .bigInt (← expectPart v t v.asInt?)
  | .single => return .single (← expectPart v t v.asFloat?).narrow
  | .double => return .double (← expectPart v t v.asFloat?)
  | .string => return .string (← expectPart v t v.asText?)
  | .char => do decodeChar (← expectPart v t v.asText?)
  | .bytes => return .bytes (← expectPart v t v.asBytes?)
  | .callable => return .callable (← expectPart v t v.asCallable?)
  | .sequence kind item => do
    let bs ← expectPart v t (if kind.takesBytes item then v.asBytes? else none)
    finishSequence v kind item (bs.map .ofByte)
  | .mapping .. => .error (.wrongType v t)
  | .struct _ => .error (.wrongType v t)
  | .option _ => .error (.wrongType v t)
  | .pointer _ => .error (.wrongType v t)

namespace StructDef

/-- The index and type of the storage that an attribute goes to, if it goes anywhere. -/
def attrSlot? (d : StructDef) (attr : String) : Option (Nat × HostType) := do
  let index ← resolveAttr d.table attr
  let slot ← d.slots[index]?
  return (index, slot.type)

end StructDef

mutual

/-- Decode a value into a type, with the structs of a schema. -/
def decode (schema : Schema) : Value → HostType → Except ConvertError HostValue
  | .null, t => t.through true (decodeLeaf .null)
  | .bool b, t => t.through false (decodeLeaf (.bool b))
  | .int n, t => t.through false (decodeLeaf (.int n))
  | .float x, t => t.through false (decodeLeaf (.float x))
  | .text s, t => t.through false (decodeLeaf (.text s))
  | .bytes bs, t => t.through false (decodeLeaf (.bytes bs))
  | .callable c, t => t.through false (decodeLeaf (.callable c))
  | .list items, t => t.through false fun
    | .sequence kind item => do
      finishSequence (.list items) kind item (← decodeItems schema .list item items 0)
    | t => decodeLeaf (.list items) t
  | .tuple items, t => t.through false fun
    | .sequence kind item => do
      finishSequence (.tuple items) kind item (← decodeItems schema .tuple item items 0)
    | t => decodeLeaf (.tuple items) t
  | .set items, t => t.through false fun
    | .sequence kind item => do
      finishSequence (.set items) kind item (← decodeItems schema .set item items 0)
    | t => decodeLeaf (.set items) t
  | .dict entries, t => t.through false fun
    | .mapping kind key value => do
      return .mapping kind (kind.collect (← decodeEntries schema key value entries))
    | t => decodeLeaf (.dict entries) t
  | .record typeName attrs, t => t.through false fun
    | .struct name => do
      let d := schema.lookup name
      return .struct d.decl (← decodeAttrs schema d attrs d.initialStored) d.initialHidden
    | t => decodeLeaf (.record typeName attrs) t

/-- Decode the items of a container, the first of which has an index. -/
def decodeItems (schema : Schema) (container : Kind) (item : HostType) :
    List Value → Nat → Except ConvertError (List HostValue)
  | [], _ => .ok []
  | v :: rest, index => do
    let x ← ConvertError.locate (.element container index) (decode schema v item)
    let xs ← decodeItems schema container item rest (index + 1)
    return x :: xs

/-- Decode the entries of a dict, each key before its value. -/
def decodeEntries (schema : Schema) (key value : HostType) :
    List (Value × Value) → Except ConvertError (List (HostValue × HostValue))
  | [] => .ok []
  | (k, v) :: rest => do
    let x ← ConvertError.locate (.key k) (decode schema k key)
    let y ← ConvertError.locate (.entry k) (decode schema v value)
    let entries ← decodeEntries schema key value rest
    return (x, y) :: entries

/-- Store the attributes of a record one after the other. Those that no field claims are passed
over. -/
def decodeAttrs (schema : Schema) (d : StructDef) :
    List (String × Value) → List HostValue → Except ConvertError (List HostValue)
  | [], stored => .ok stored
  | (attr, v) :: rest, stored =>
    match d.attrSlot? attr with
    | none => decodeAttrs schema d rest stored
    | some (index, t) => do
      let x ← ConvertError.locate (.attr d.typeName attr) (decode schema v t)
      decodeAttrs schema d rest (stored.set index x)

end

/-- Decode a value into storage: what the storage holds afterwards, and whether it failed. Storage
is overwritten only by a value. -/
def decodeInto (schema : Schema) (t : HostType) (v : Value) (stored : HostValue) :
    Except ConvertError Unit × HostValue :=
  match decode schema v t with
  | .ok x => (.ok (), x)
  | .error e => (.error e, stored)

end ScriptBridge
