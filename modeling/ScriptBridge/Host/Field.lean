import ScriptBridge.Text.Identifier

/-!
# Fields of host structs

A host struct that scripts may see declares its fields in a table: how each is called by keyword and
as an attribute, at which position it stands in a call, and whether a call may leave it out.

- `FieldSpec`: one entry of a table; `FieldSpec.ofIdentifier` and the `with` functions build it.
- `FieldSpec.attrName`, `FieldSpec.isBound`, `FieldSpec.label`: what an entry says about its field.
- `resolveAttr`: which entry an attribute of a record belongs to.
- `StructDecl`: the name of a struct with its table and the names of its host-only fields.
-/

namespace ScriptBridge

/-- How a field of a host struct takes part in records and calls. -/
structure FieldSpec where
  /-- The identifier of the field in the host. -/
  ident : String
  /-- The keyword and attribute name, when it is given one of its own. -/
  name : Option String
  /-- The index among positional arguments. -/
  position : Option Nat
  /-- In calls with positions, fields may be left out unless they say otherwise. -/
  required : Bool
  /-- In calls with keywords alone, fields are needed unless they say otherwise. -/
  optional : Bool
deriving DecidableEq, Repr

namespace FieldSpec

/-- An identifier without the mark that lets a reserved word be one. -/
def plainIdentifier (ident : String) : String :=
  match ident.toList with
  | 'r' :: '#' :: rest => String.ofList rest
  | _ => ident

/-- The entry of a field about which nothing else is said. -/
def ofIdentifier (ident : String) : FieldSpec :=
  ⟨plainIdentifier ident, none, none, false, false⟩

def withName (spec : FieldSpec) (name : String) : FieldSpec := { spec with name := some name }

def withPosition (spec : FieldSpec) (position : Nat) : FieldSpec :=
  { spec with position := some position }

def withRequired (spec : FieldSpec) (required : Bool) : FieldSpec := { spec with required }

def withOptional (spec : FieldSpec) (optional : Bool) : FieldSpec := { spec with optional }

/-- The attribute name of the field: its own name, else its identifier. -/
def attrName (spec : FieldSpec) : String := spec.name.getD spec.ident

/-- Whether calls with positions reach the field at all. -/
def isBound (spec : FieldSpec) : Bool := spec.name.isSome || spec.position.isSome

/-- How an error calls the field. -/
def label (spec : FieldSpec) : String :=
  match spec.name, spec.position with
  | some name, _ => name
  | none, some position => "position " ++ toString position
  | none, none => spec.ident

end FieldSpec

/-- The entry that an attribute belongs to: the first whose name is the attribute's but for the case
of ASCII letters, and only if no entry of the table has such a name, the first whose identifier has
the same capitalised form. -/
def resolveAttr (table : List FieldSpec) (attr : String) : Option Nat :=
  (table.findIdx? fun spec => spec.name.any (sameIgnoringCase · attr)) <|>
    table.findIdx? fun spec => capitalize spec.ident == capitalize attr

/-- The declaration of a host struct. -/
structure StructDecl where
  typeName : String
  table : List FieldSpec
  /-- The identifiers of the fields that are no part of the table. -/
  hidden : List String
deriving DecidableEq, Repr

end ScriptBridge
