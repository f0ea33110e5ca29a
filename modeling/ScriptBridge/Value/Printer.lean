import ScriptBridge.Decimal.Layout
import ScriptBridge.Text.Quoted
import ScriptBridge.Value.Basic

/-!
# The printed form of script values

- `Value.floatStyle`: how floats are written.
- `Value.reprChars`, `Value.repr`: the form that a script reads back, text in quotes.
- `Value.str`: the same, but text as it is.
- `Callable.debugText`: how a handle is shown to a host programmer.
-/

namespace ScriptBridge

/-- Texts one after the other, with a comma and a space between them. -/
def commaSeparated (texts : List (List Char)) : List Char := [',', ' '].intercalate texts

namespace Value

/-- Floats have the fewest digits that read back, and a half goes away from zero. Small ones are
never written with an exponent, and the exponent of a large one has no sign. -/
def floatStyle : FloatStyle := ⟨.away, none, false⟩

/-- The text of a float. Infinities carry either sign, a NaN none. -/
def floatChars (x : Binary64) : List Char :=
  match floatStyle.write? x with
  | some digits => digits
  | none => if x.isNaN then "nan".toList else if x.negative then "-inf".toList else "+inf".toList

/-- The text of an integer in decimal. -/
def intChars : Int → List Char
  | .ofNat n => Nat.toDigits 10 n
  | .negSucc n => '-' :: Nat.toDigits 10 (n + 1)

/-- Items of a tuple between parentheses. A lone item has a comma, so that it is no mere
parenthesised value. -/
def tupleChars : List (List Char) → List Char
  | [item] => '(' :: item ++ [',', ')']
  | items => '(' :: commaSeparated items ++ [')']

mutual

/-- The printed form of a value. -/
def reprChars : Value → List Char
  | null => "None".toList
  | bool b => if b then "True".toList else "False".toList
  | int n => intChars n
  | float x => floatChars x
  | text s => Quoted.text s
  | bytes bs => Quoted.bytes bs
  | list items => '[' :: commaSeparated (itemTexts items) ++ [']']
  | tuple items => tupleChars (itemTexts items)
  | dict entries => '\x7b' :: commaSeparated (entryTexts entries) ++ ['\x7d']
  | set items => "set([".toList ++ commaSeparated (itemTexts items) ++ [']', ')']
  | callable c => "<function ".toList ++ c.name.toList ++ ['>']
  | record typeName attrs => typeName.toList ++ '(' :: commaSeparated (attrTexts attrs) ++ [')']

/-- The printed forms of items. -/
def itemTexts : List Value → List (List Char)
  | [] => []
  | v :: rest => reprChars v :: itemTexts rest

/-- The printed forms of entries: key, colon, value. -/
def entryTexts : List (Value × Value) → List (List Char)
  | [] => []
  | (k, v) :: rest => (reprChars k ++ ':' :: ' ' :: reprChars v) :: entryTexts rest

/-- The printed forms of attributes: name, equals sign, value. -/
def attrTexts : List (String × Value) → List (List Char)
  | [] => []
  | (name, v) :: rest => (name.toList ++ ' ' :: '=' :: ' ' :: reprChars v) :: attrTexts rest

end

/-- The printed form of a value. -/
def repr (v : Value) : String := String.ofList v.reprChars

/-- Text as it is, and the printed form of every other value. -/
def str : Value → String
  | text s => s
  | v => v.repr

end Value

/-- A handle with its name in quotes. -/
def Callable.debugText (c : Callable) : String :=
  "Callable \x7b name: " ++ String.ofList (Quoted.text c.name) ++ " \x7d"

end ScriptBridge
