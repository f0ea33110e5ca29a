import ScriptBridge.Value.Container

/-!
# Targets of the strict encoder

The kind of script value that an encoding should produce.

- `Target`: any value, or one of the kinds. Null is no target, since only absence encodes to it.
- `Target.kind?`, `Target.accepts`, `Target.describe`.
- `Target.ofItems?`: what the target makes of the items of a sequence.
-/

namespace ScriptBridge

/-- What an encoding should produce. -/
inductive Target where
  | any
  | bool
  | int
  | float
  | text
  | bytes
  | list
  | tuple
  | set
  | dict
  | record
  | callable
deriving DecidableEq, Repr

namespace Target

/-- The kind that a target stands for. -/
def kind? : Target → Option Kind
  | any => none
  | bool => some .bool
  | int => some .int
  | float => some .float
  | text => some .text
  | bytes => some .bytes
  | list => some .list
  | tuple => some .tuple
  | set => some .set
  | dict => some .dict
  | record => some .record
  | callable => some .callable

/-- Whether a value of a kind is what the target asks for. -/
def accepts (target : Target) (kind : Kind) : Bool :=
  match target.kind? with
  | none => true
  | some k => k == kind

/-- A target in error messages. -/
def describe (target : Target) : String :=
  match target.kind? with
  | none => "any script value"
  | some kind => "script " ++ kind.typeName

/-- What becomes of the items of a sequence: a list by default. A set keeps what it can hold. -/
def ofItems? : Target → Option (List Value → Value)
  | any => some .list
  | list => some .list
  | tuple => some .tuple
  | set => some fun items => .set (Elements.ofList items)
  | _ => none

end Target

end ScriptBridge
