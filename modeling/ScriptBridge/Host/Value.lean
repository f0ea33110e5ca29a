import ScriptBridge.Dynamic.Basic
import ScriptBridge.Host.Field
import ScriptBridge.Host.Type
import ScriptBridge.Json
import ScriptBridge.Value.Basic

/-!
# Host values

The values of host types. A value says of itself which kind of container it is, so that two values
can be compared and shown without their type; what stands behind a pointer is the value itself.

- `HostValue`: the values.
- `HostType.default`: the value that a field has before anything is stored in it.
-/

namespace ScriptBridge

/-- A value of the host. -/
inductive HostValue where
  | bool (b : Bool)
  | int (t : IntType) (n : Fixed t)
  | wrapping (t : IntType) (n : Fixed t)
  | bigInt (n : Int)
  | single (x : Binary32)
  | double (x : Binary64)
  | string (s : String)
  | char (c : Char)
  | bytes (bs : List UInt8)
  | callable (c : Callable)
  | script (v : Value)
  | dynamic (d : Dynamic)
  | json (j : Json)
  /-- The absent value. -/
  | none
  /-- A present value of an optional type. -/
  | some (v : HostValue)
  | sequence (kind : SequenceKind) (items : List HostValue)
  | mapping (kind : MappingKind) (entries : List (HostValue × HostValue))
  /-- The fields of a struct: those that its table names, in the order of the table and as far as
  they have storage, and those that are the host's alone. -/
  | struct (decl : StructDecl) (stored hidden : List HostValue)
deriving Inhabited

namespace HostValue

/-- A byte as an integer. -/
def ofByte (b : UInt8) : HostValue :=
  int .byte ⟨b.toNat, by
    have h := b.toNat_lt
    have hl : IntType.byte.least = 0 := by decide
    have hg : IntType.byte.greatest = 255 := by decide
    unfold IntType.InRange
    omega⟩

end HostValue

namespace HostType

/-- The value of a type when nothing has been stored: zero, empty or absent. The defaults of structs
are given. -/
def default (structs : String → HostValue) : HostType → HostValue
  | bool => .bool false
  | int t => .int t (.wrap t 0)
  | wrapping t => .wrapping t (.wrap t 0)
  | bigInt => .bigInt 0
  | single => .single (.zero _)
  | double => .double (.zero _)
  | string => .string ""
  | char => .char (Char.ofNat 0)
  | bytes => .bytes []
  | callable => .callable ⟨"", 0⟩
  | script => .script .null
  | dynamic => .dynamic .null
  | json => .json .null
  | option _ => .none
  | pointer t => t.default structs
  | sequence (.array length) item =>
    .sequence (.array length) (.replicate length (item.default structs))
  | sequence kind _ => .sequence kind []
  | mapping kind _ _ => .mapping kind []
  | struct name => structs name

end HostType

end ScriptBridge
