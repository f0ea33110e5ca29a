import ScriptBridge.Host.Value

/-!
# Declared structs

A schema says for each struct name which fields the struct has, of which types, and with which
values they start.

- `Slot`: the type of a field and its starting value.
- `StructDef`: a declaration with the slots of its fields. The table may name more fields than have
  storage.
- `Schema`: the declared structs; `Schema.lookup` finds one, `Schema.declare` adds one.
-/

namespace ScriptBridge

/-- The storage of one field. -/
structure Slot where
  type : HostType
  initial : HostValue

/-- A struct with its storage. -/
structure StructDef where
  decl : StructDecl
  /-- The storage of the table's entries, from the first on. -/
  slots : List Slot
  /-- The storage of the host-only fields, in the order of their names. -/
  hidden : List Slot

namespace StructDef

def typeName (d : StructDef) : String := d.decl.typeName

def table (d : StructDef) : List FieldSpec := d.decl.table

/-- What the fields of the table start with. -/
def initialStored (d : StructDef) : List HostValue := d.slots.map (·.initial)

/-- What the host-only fields start with. -/
def initialHidden (d : StructDef) : List HostValue := d.hidden.map (·.initial)

/-- The struct before anything is stored in it. -/
def initial (d : StructDef) : HostValue := .struct d.decl d.initialStored d.initialHidden

/-- The struct of a name without fields. -/
def empty (name : String) : StructDef := ⟨⟨name, [], []⟩, [], []⟩

end StructDef

/-- The declared structs, the last declared first. -/
abbrev Schema := List StructDef

namespace Schema

/-- No structs. -/
def empty : Schema := []

/-- The struct of a name. A name that nothing declares has no fields. -/
def lookup (schema : Schema) (name : String) : StructDef :=
  match schema.find? (·.typeName == name) with
  | some d => d
  | none => .empty name

/-- A slot that starts with the default of its type, by the structs declared so far. -/
def slot (schema : Schema) (t : HostType) : Slot :=
  ⟨t, t.default fun name => (schema.lookup name).initial⟩

/-- Declare a struct: the entries of its table that have storage with their types, the entries after
them that have none, and the host-only fields. -/
def declare (schema : Schema) (typeName : String) (fields : List (FieldSpec × HostType))
    (unstored : List FieldSpec) (hidden : List (String × HostType)) : Schema :=
  { decl := ⟨typeName, fields.map (·.1) ++ unstored, hidden.map (·.1)⟩
    slots := fields.map fun field => schema.slot field.2
    hidden := hidden.map fun field => schema.slot field.2 } :: schema

end Schema

end ScriptBridge
