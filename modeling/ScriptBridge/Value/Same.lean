import ScriptBridge.Assoc
import ScriptBridge.Value.Basic

/-!
# Sameness of script values

Two values are the same when they have one kind and agree part by part. An integer is never the same
as a float. Dicts, sets and records are the same regardless of order.

- `Value.same`: the relation, structural in its first argument.
- `Value.eachSame`, `Value.entriesWithin`, `Value.itemsWithin`, `Value.attrsWithin`: its parts.
  Members of the first container are looked up in the second, so equal lengths and inclusion decide.
-/

namespace ScriptBridge.Value

mutual

/-- Sameness of two values. -/
def same : Value → Value → Bool
  | null, null => true
  | bool a, bool b => a == b
  | int m, int n => m == n
  | float x, float y => x.same y
  | text s, text t => s == t
  | bytes as, bytes bs => as == bs
  | list as, list bs => eachSame as bs
  | tuple as, tuple bs => eachSame as bs
  | dict as, dict bs => as.length == bs.length && entriesWithin as bs
  | set as, set bs => as.length == bs.length && itemsWithin as bs
  | callable c, callable d => c == d
  | record t as, record u bs => t == u && (as.length == bs.length && attrsWithin as bs)
  | _, _ => false
termination_by structural a => a

/-- Item by item, in order. -/
def eachSame : List Value → List Value → Bool
  | [], [] => true
  | a :: as, b :: bs => same a b && eachSame as bs
  | _, _ => false
termination_by structural a => a

/-- Every entry of the first list is found in the second, with the same value. -/
def entriesWithin : List (Value × Value) → List (Value × Value) → Bool
  | [], _ => true
  | (k, v) :: rest, bs =>
    (match bs.find? fun e => same k e.1 with
      | some e => same v e.2
      | none => false) && entriesWithin rest bs
termination_by structural a => a

/-- Every item of the first list is in the second. -/
def itemsWithin : List Value → List Value → Bool
  | [], _ => true
  | a :: rest, bs => bs.any (fun b => same a b) && itemsWithin rest bs
termination_by structural a => a

/-- Every attribute of the first list is found in the second, with the same value. -/
def attrsWithin : List (String × Value) → List (String × Value) → Bool
  | [], _ => true
  | (name, v) :: rest, bs =>
    (match bs.find? fun e => name == e.1 with
      | some e => same v e.2
      | none => false) && attrsWithin rest bs
termination_by structural a => a

end

instance : BEq Value := ⟨same⟩

end ScriptBridge.Value
