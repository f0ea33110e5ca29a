import ScriptBridge.Value.Container
import ScriptBridge.Value.Printer

/-!
# Why a conversion fails

An error is a cause inside any number of places, the outermost place first. The text names every
place on the way and then the cause.

- `Place`: one step of the way, a member of a container or an argument of a call.
- `TableFault`: why a field table cannot be bound.
- `ConvertError`: the causes, and `within` for a cause at a place.
- `ConvertError.root`: the cause without its places.
- `ConvertError.message`: the text.
- `ConvertError.locate`: put the failure of a step at a place.
-/

namespace ScriptBridge

/-- Where a conversion fails, one step of the way. -/
inductive Place where
  /-- An item of a host sequence. -/
  | item (index : Nat)
  /-- An item of a script container. -/
  | element (container : Kind) (index : Nat)
  /-- A key of a host map, which has no script form yet. -/
  | someKey
  /-- A key of a dict. -/
  | key (k : Value)
  /-- The value under a key of a dict. -/
  | entry (k : Value)
  /-- An attribute of a record. -/
  | attr (typeName name : String)
  /-- A positional argument. -/
  | positional (index : Nat)
  /-- A keyword argument. -/
  | keyword (name : String)
  /-- A place in the words of the host. -/
  | described (words : String)

namespace Place

def message : Place → String
  | item index => "[" ++ toString index ++ "]"
  | element container index => container.typeName ++ "[" ++ toString index ++ "]"
  | someKey => "dict key"
  | key k => "dict key " ++ k.repr
  | entry k => "dict[" ++ k.repr ++ "]"
  | attr typeName name => typeName ++ "." ++ name
  | positional index => "positional arg " ++ toString index
  | keyword name => "keyword arg '" ++ name ++ "'"
  | described words => words

end Place

/-- Why a field table cannot be bound. -/
inductive TableFault where
  /-- Two fields, named by their identifiers, have one position. -/
  | sharedPosition (first second : String) (position : Nat)
  /-- Two fields, named by their identifiers, have one name. -/
  | sharedName (first second : String) (name : String)
  /-- An entry stands for no field. -/
  | noStorage (index : Nat)
  /-- A fault in the words of the host. -/
  | described (words : String)
deriving DecidableEq, Repr

namespace TableFault

def message : TableFault → String
  | sharedPosition first second position =>
    "fields '" ++ first ++ "' and '" ++ second ++ "' both claim position " ++ toString position
  | sharedName first second name =>
    "fields '" ++ first ++ "' and '" ++ second ++ "' both claim name '" ++ name ++ "'"
  | noStorage index => "field table entry " ++ toString index ++ " has no storage"
  | described words => words

end TableFault

/-- Why a conversion or a binding fails. -/
inductive ConvertError where
  /-- A value of one shape where another is needed. -/
  | mismatch (found expected : String)
  /-- An integer, as it is written, that the destination cannot hold. -/
  | outOfRange (number target : String)
  /-- No field has this name. -/
  | unknownKeyword (name : String)
  /-- No field has this position. -/
  | unexpectedPositional (index : Nat)
  /-- Nothing was given for a field that needs a value. -/
  | missingRequired (label : String)
  /-- The field table of a record is at fault. -/
  | malformed (record : String) (fault : TableFault)
  /-- A host value that has no script form. -/
  | unsupported (name : String)
  /-- A value nested too deep. -/
  | tooDeep (limit : Nat)
  /-- A container that refuses a member. -/
  | refused (cause : ValueError)
  /-- A failure at a place. -/
  | within (place : Place) (cause : ConvertError)

namespace ConvertError

/-- The cause without its places. -/
def root : ConvertError → ConvertError
  | within _ cause => cause.root
  | e => e

/-- The text of an error: every place with a colon after it, then the cause. -/
def message : ConvertError → String
  | mismatch found expected => "cannot convert " ++ found ++ " to " ++ expected
  | outOfRange number target => "integer " ++ number ++ " out of range for " ++ target
  | unknownKeyword name => "unknown keyword argument: " ++ name
  | unexpectedPositional index => "unexpected positional argument at index " ++ toString index
  | missingRequired label => "missing required argument: " ++ label
  | malformed record fault => "malformed parameter record " ++ record ++ ": " ++ fault.message
  | unsupported name => "unsupported native type: " ++ name
  | tooDeep limit => "nesting exceeds " ++ toString limit ++ " levels"
  | refused cause => cause.message
  | within place cause => place.message ++ ": " ++ cause.message

/-- Put a failure at a place. -/
def locate {α : Type} (place : Place) : Except ConvertError α → Except ConvertError α
  | .ok a => .ok a
  | .error e => .error (within place e)

/-- Pass the refusal of a container on. -/
def lift {α : Type} : Except ValueError α → Except ConvertError α
  | .ok a => .ok a
  | .error e => .error (refused e)

end ConvertError

end ScriptBridge
