import ScriptBridge.Binding.Storage

/-!
# Binding positional and keyword arguments

Positional arguments go to the fields of their positions and keyword arguments to the fields of
their names, keywords last, so that a keyword wins over a position. Fields may be left out unless
their entry says that they are required, and an entry with neither name nor position takes no part.

- `tableFault?`: the first pair of entries that claim one position or one name.
- `Argument`: an argument of a call, with `Argument.claimant` for the entry that it reaches.
- `bindEach`: store the arguments in order.
- `firstMissing?`: the first required field that no argument reached.
- `bindArguments`: the whole call.
-/

namespace ScriptBridge

/-- The fault of an entry that claims what an earlier one has. Positions are looked at first. -/
def FieldSpec.clash? (earlier : List FieldSpec) (spec : FieldSpec) : Option TableFault :=
  let position := do
    let p ← spec.position
    let other ← earlier.find? (·.position == some p)
    return TableFault.sharedPosition other.ident spec.ident p
  let name := do
    let n ← spec.name
    let other ← earlier.find? (·.name == some n)
    return TableFault.sharedName other.ident spec.ident n
  position <|> name

/-- The fault of the first entry that has one, given the entries before. -/
def tableFaultAfter? : (earlier table : List FieldSpec) → Option TableFault
  | _, [] => none
  | earlier, spec :: rest => spec.clash? earlier <|> tableFaultAfter? (earlier ++ [spec]) rest

/-- The fault of a table, if it has one. -/
def tableFault? (table : List FieldSpec) : Option TableFault := tableFaultAfter? [] table

/-- An argument of a call. -/
inductive Argument where
  | positional (index : Nat) (v : Value)
  | keyword (name : String) (v : Value)

namespace Argument

def value : Argument → Value
  | positional _ v => v
  | keyword _ v => v

def place : Argument → Place
  | positional index _ => .positional index
  | keyword name _ => .keyword name

/-- The entry that claims the argument. -/
def claimant (table : List FieldSpec) : Argument → Except ConvertError Nat
  | positional index _ =>
    match table.findIdx? (·.position == some index) with
    | some i => .ok i
    | none => .error (.unexpectedPositional index)
  | keyword name _ =>
    match table.findIdx? (·.name == some name) with
    | some i => .ok i
    | none => .error (.unknownKeyword name)

end Argument

/-- The arguments of a call in the order in which they are bound. -/
def callArguments (args : List Value) (kwargs : List (String × Value)) : List Argument :=
  args.mapIdx .positional ++ kwargs.map fun (name, v) => .keyword name v

/-- Store one argument. Returns the entry that it reached. -/
def bindOne (schema : Schema) (d : StructDef) (arg : Argument) (stored : Storage) :
    Except ConvertError (Nat × Storage) := do
  let index ← arg.claimant d.table
  let stored ← d.store schema arg.place index arg.value stored
  return (index, stored)

/-- Store arguments in order, up to the first failure. Returns the entries that were reached, or the
failure, and what is in storage. -/
def bindEach (schema : Schema) (d : StructDef) :
    List Argument → List Nat → Storage → Except ConvertError (List Nat) × Storage
  | [], reached, stored => (.ok reached, stored)
  | arg :: rest, reached, stored =>
    match bindOne schema d arg stored with
    | .ok (index, stored) => bindEach schema d rest (index :: reached) stored
    | .error e => (.error e, stored)

/-- The first required entry that was not reached, of those that calls reach at all. -/
def firstMissing? (table : List FieldSpec) (reached : List Nat) : Option FieldSpec :=
  (table.zipIdx.find? fun (spec, index) =>
    spec.isBound && spec.required && !reached.contains index).map (·.1)

/-- Bind the arguments of a call to the fields of a struct. A table at fault binds nothing. -/
def bindArguments (schema : Schema) (d : StructDef) (args : List Value)
    (kwargs : List (String × Value)) (stored : Storage) : Bound :=
  match tableFault? d.table with
  | some fault => ⟨.error (.malformed d.typeName fault), stored⟩
  | none =>
    match bindEach schema d (callArguments args kwargs) [] stored with
    | (.error e, stored) => ⟨.error e, stored⟩
    | (.ok reached, stored) =>
      match firstMissing? d.table reached with
      | some spec => ⟨.error (.missingRequired spec.label), stored⟩
      | none => ⟨.ok (), stored⟩

end ScriptBridge
