import ScriptBridge.Binding.Storage

/-!
# Binding keyword arguments alone

Here the table leads: each entry with a name looks its argument up, by that name or by its
identifier. The first keyword that matches counts, and null counts as no argument at all. Fields are
needed unless their entry says that they are optional, and keywords that no entry looks for are
ignored.

- `FieldSpec.supplied?`: the argument of an entry.
- `bindKeywordsFrom`: bind the entries of a table from an index on.
- `bindKeywords`: the whole call.
-/

namespace ScriptBridge

/-- The argument for an entry of a name. -/
def FieldSpec.supplied? (spec : FieldSpec) (name : String) (kwargs : List (String × Value)) :
    Option Value :=
  match kwargs.find? fun (key, _) => key == name || key == spec.ident with
  | some (_, v) => if v.isNull then none else some v
  | none => none

/-- Bind entries one after the other, up to the first failure. -/
def bindKeywordsFrom (schema : Schema) (d : StructDef) (kwargs : List (String × Value)) :
    List FieldSpec → Nat → Storage → Bound
  | [], _, stored => ⟨.ok (), stored⟩
  | spec :: rest, index, stored =>
    match spec.name with
    | none => bindKeywordsFrom schema d kwargs rest (index + 1) stored
    | some name =>
      match spec.supplied? name kwargs with
      | some v =>
        match d.store schema (.keyword name) index v stored with
        | .ok stored => bindKeywordsFrom schema d kwargs rest (index + 1) stored
        | .error e => ⟨.error e, stored⟩
      | none =>
        if spec.optional then bindKeywordsFrom schema d kwargs rest (index + 1) stored
        else ⟨.error (.missingRequired name), stored⟩

/-- Bind the keyword arguments of a call to the fields of a struct. -/
def bindKeywords (schema : Schema) (d : StructDef) (kwargs : List (String × Value))
    (stored : Storage) : Bound :=
  bindKeywordsFrom schema d kwargs d.table 0 stored

end ScriptBridge
