import ScriptBridge.Decoding.Typed

/-!
# Storing arguments

Both binders store arguments in the fields of a struct, one after the other. A failure leaves what
was stored before it.

- `Storage`: the fields of a table as far as they have storage.
- `Bound`: how a binding ended and what it left in storage.
- `StructDef.store`: decode an argument into the field of a table entry.
-/

namespace ScriptBridge

/-- What the fields of a struct's table hold, in the order of the table. -/
abbrev Storage := List HostValue

/-- How a binding ended, and what is in storage afterwards. -/
structure Bound where
  outcome : Except ConvertError Unit
  stored : Storage

namespace StructDef

/-- The fault of a table entry without storage. -/
def withoutStorage (d : StructDef) (index : Nat) : ConvertError :=
  .malformed d.typeName (.noStorage index)

/-- Decode an argument into the field of a table entry, located at a place. -/
def store (d : StructDef) (schema : Schema) (place : Place) (index : Nat) (v : Value)
    (stored : Storage) : Except ConvertError Storage :=
  ConvertError.locate place <|
    match d.slots[index]? with
    | none => .error (d.withoutStorage index)
    | some slot => return stored.set index (← decode schema v slot.type)

end StructDef

end ScriptBridge
