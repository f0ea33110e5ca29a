import ScriptBridge.Host.Value

/-!
# The shape of host values

What the encoders see of a host value: not its type, but which of a few shapes it has. Pointers and
present optional values show what they hold, sequences and maps of every kind look alike, and a
struct shows the fields of its table under their attribute names.

- `HostTree`: a value as a tree of shapes.
- `HostTree.describe`: how error messages call a shape.
- `Json.tree`, `Dynamic.tree`, `HostValue.tree`: the shapes of host values.
-/

namespace ScriptBridge

/-- The shape of a host value. -/
inductive HostTree where
  /-- The absent value. -/
  | nil
  | bool (b : Bool)
  /-- A signed integer of at most 64 bits. -/
  | signed (n : Int)
  /-- An unsigned integer of at most 64 bits. -/
  | unsigned (n : Int)
  /-- An integer that may be wider. -/
  | big (n : Int)
  | float (x : Binary64)
  | str (s : String)
  | bytes (bs : List UInt8)
  | seq (items : List HostTree)
  | map (entries : List (HostTree × HostTree))
  | struct (typeName : String) (fields : List (String × HostTree))
  | callable (c : Callable)
  /-- A value that is a script value already. -/
  | script (v : Value)
  /-- A value that has no script form, named for the error message. -/
  | unsupported (name : String)
deriving Inhabited

namespace HostTree

/-- A shape in error messages. -/
def describe : HostTree → String
  | nil => "native nil"
  | bool _ => "native bool"
  | signed _ => "native signed integer"
  | unsigned _ => "native unsigned integer"
  | big _ => "native big integer"
  | float _ => "native float"
  | str _ => "native string"
  | bytes _ => "native byte string"
  | seq _ => "native sequence"
  | map _ => "native map"
  | struct typeName _ => "native struct " ++ typeName
  | callable _ => "native callable"
  | script v => "script " ++ v.typeName
  | unsupported name => "native " ++ name

/-- An integer of a fixed width. Up to 64 bits it is cast to the type of 64 bits that has its sign;
a wider one goes there if it fits, and is big otherwise. -/
def ofFixed {t : IntType} (n : Fixed t) : HostTree :=
  match t.width, t.signed with
  | .bits128, true =>
    match Fixed.ofInt? .int64 n.val with
    | some m => signed m.val
    | none => big n.val
  | .bits128, false =>
    match Fixed.ofInt? .uint64 n.val with
    | some m => unsigned m.val
    | none => big n.val
  | _, true => signed (Fixed.cast .int64 n.val).val
  | _, false => unsigned (Fixed.cast .uint64 n.val).val

/-- An integer of a document: signed if it fits, and unsigned otherwise. -/
def ofJsonInteger (n : JsonInteger) : HostTree :=
  if IntType.int64.InRange n.val then signed n.val else unsigned n.val

end HostTree

namespace Json

mutual

/-- The shape of a document. -/
def tree : Json → HostTree
  | null => .nil
  | bool b => .bool b
  | int n => .ofJsonInteger n
  | float x => .float x.val
  | str s => .str s
  | arr items => .seq (itemTrees items)
  | obj members => .map (memberTrees members)

/-- The shapes of items. -/
def itemTrees : List Json → List HostTree
  | [] => []
  | j :: rest => tree j :: itemTrees rest

/-- The shapes of members, whose names are text keys. -/
def memberTrees : List (String × Json) → List (HostTree × HostTree)
  | [] => []
  | (name, j) :: rest => (.str name, tree j) :: memberTrees rest

end

end Json

namespace Dynamic

mutual

/-- The shape of a dynamic value. -/
def tree : Dynamic → HostTree
  | null => .nil
  | bool b => .bool b
  | int n => .signed n.val
  | uint n => .unsigned n.val
  | float x => .float x
  | str s => .str s
  | bytes bs => .bytes bs
  | list items => .seq (itemTrees items)
  | map entries => .map (entryTrees entries)

/-- The shapes of items. -/
def itemTrees : List Dynamic → List HostTree
  | [] => []
  | d :: rest => tree d :: itemTrees rest

/-- The shapes of entries. -/
def entryTrees : List (Dynamic × Dynamic) → List (HostTree × HostTree)
  | [] => []
  | (k, v) :: rest => (tree k, tree v) :: entryTrees rest

end

end Dynamic

namespace HostValue

mutual

/-- The shape of a host value. -/
def tree : HostValue → HostTree
  | bool b => .bool b
  | int _ n => .ofFixed n
  | wrapping _ n => .ofFixed n
  | bigInt n => .big n
  | single x => .float x.widen
  | double x => .float x
  | string s => .str s
  | char c => .str (String.ofList [c])
  | bytes bs => .bytes bs
  | callable c => .callable c
  | script v => .script v
  | dynamic d => d.tree
  | json j => j.tree
  | none => .nil
  | some v => tree v
  | sequence _ items => .seq (itemTrees items)
  | mapping _ entries => .map (entryTrees entries)
  | struct decl stored _ =>
    .struct decl.typeName ((decl.table.map FieldSpec.attrName).zip (itemTrees stored))

/-- The shapes of items. -/
def itemTrees : List HostValue → List HostTree
  | [] => []
  | v :: rest => tree v :: itemTrees rest

/-- The shapes of entries. -/
def entryTrees : List (HostValue × HostValue) → List (HostTree × HostTree)
  | [] => []
  | (k, v) :: rest => (tree k, tree v) :: entryTrees rest

end

end HostValue

end ScriptBridge
