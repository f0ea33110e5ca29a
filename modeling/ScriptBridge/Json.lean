import ScriptBridge.Assoc
import ScriptBridge.Binary
import ScriptBridge.Integer

/-!
# JSON documents

Documents as host values. Numbers that are integers of 64 bits are kept apart from floating ones,
and objects keep their members in order.

- `JsonInteger`: an integer that fits 64 bits, signed or unsigned.
- `JsonFloat`: a floating number; there are no infinities and NaNs in a document.
- `Json`: documents.
- `Json.same`: equality, in which the order of members does not count.
-/

namespace ScriptBridge

/-- An integer of a document: from the least signed to the greatest unsigned number of 64 bits. -/
structure JsonInteger where
  val : Int
  inRange : IntType.int64.least ≤ val ∧ val ≤ IntType.uint64.greatest
deriving DecidableEq

namespace JsonInteger

/-- The number as an integer of a document, if it fits. -/
def ofInt? (n : Int) : Option JsonInteger :=
  if h : IntType.int64.least ≤ n ∧ n ≤ IntType.uint64.greatest then some ⟨n, h⟩ else none

theorem int64_greatest_le : IntType.int64.greatest ≤ IntType.uint64.greatest := by decide

theorem int64_least_le : IntType.int64.least ≤ IntType.uint64.least := by decide

/-- A signed number of 64 bits. -/
def ofSigned (n : Fixed .int64) : JsonInteger :=
  ⟨n.val, n.inRange.1, Int.le_trans n.inRange.2 int64_greatest_le⟩

/-- An unsigned number of 64 bits. -/
def ofUnsigned (n : Fixed .uint64) : JsonInteger :=
  ⟨n.val, Int.le_trans int64_least_le n.inRange.1, n.inRange.2⟩

/-- A byte. -/
def ofByte (b : UInt8) : JsonInteger :=
  ⟨b.toNat, by
    have h := b.toNat_lt
    have hl : IntType.int64.least ≤ 0 := by decide
    have hg : (255 : Int) ≤ IntType.uint64.greatest := by decide
    omega⟩

end JsonInteger

/-- A floating number of a document, which is finite. -/
structure JsonFloat where
  val : Binary64
  isFinite : val.isFinite = true
deriving DecidableEq

namespace JsonFloat

/-- The number as one of a document, if it is finite. -/
def ofBinary? (x : Binary64) : Option JsonFloat :=
  if h : x.isFinite = true then some ⟨x, h⟩ else none

end JsonFloat

/-- A JSON document. -/
inductive Json where
  | null
  | bool (b : Bool)
  | int (n : JsonInteger)
  | float (x : JsonFloat)
  | str (s : String)
  | arr (items : List Json)
  | obj (members : List (String × Json))
deriving Inhabited

namespace Json

mutual

/-- Equality of documents. An integer never equals a floating number, and the two zeros of the
latter are equal. -/
def same : Json → Json → Bool
  | null, null => true
  | bool a, bool b => a == b
  | int m, int n => m.val == n.val
  | float x, float y => x.val.same y.val
  | str s, str t => s == t
  | arr as, arr bs => eachSame as bs
  | obj as, obj bs => as.length == bs.length && membersWithin as bs
  | _, _ => false

/-- Item by item, in order. -/
def eachSame : List Json → List Json → Bool
  | [], [] => true
  | a :: as, b :: bs => same a b && eachSame as bs
  | _, _ => false

/-- Every member of the first list is found in the second, with the same value. -/
def membersWithin : List (String × Json) → List (String × Json) → Bool
  | [], _ => true
  | (name, v) :: rest, bs =>
    (match bs.find? fun e => name == e.1 with
      | some e => same v e.2
      | none => false) && membersWithin rest bs

end

/-- The object of some members; of members with one name the last value stays, in the first
place. -/
def ofMembers (members : List (String × Json)) : Json :=
  obj (Assoc.putAll (· == ·) [] members)

end Json

end ScriptBridge
