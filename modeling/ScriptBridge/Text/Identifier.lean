import ScriptBridge.Unicode.Alphabetic
import ScriptBridge.Unicode.Numeric
import ScriptBridge.Unicode.Uppercase

/-!
# Identifiers

The names that attributes may have, and the capitalised form under which an attribute and a host
field that differ only in their first letter meet.

- `isIdentifier`: a letter or underscore, then letters, numbers and underscores.
- `capitalize`: the first character in capitals, the others as they are.
- `sameIgnoringCase`: equality up to the case of ASCII letters.
-/

namespace ScriptBridge

/-- Whether a character may start an identifier. -/
def startsIdentifier (c : Char) : Bool := Unicode.isAlphabetic c || c == '_'

/-- Whether a character may stand in an identifier after the first. -/
def continuesIdentifier (c : Char) : Bool :=
  Unicode.isAlphabetic c || Unicode.isNumeric c || c == '_'

/-- Whether a name is an identifier. -/
def isIdentifier (name : String) : Bool :=
  match name.toList with
  | [] => false
  | c :: rest => startsIdentifier c && rest.all continuesIdentifier

/-- The first character mapped to capitals, which may be several characters. -/
def capitalize (name : String) : String :=
  match name.toList with
  | [] => ""
  | c :: rest => String.ofList (Unicode.uppercase c ++ rest)

/-- Equality of names when ASCII letters of either case count as the same. Letters outside ASCII
have to agree exactly. -/
def sameIgnoringCase (a b : String) : Bool :=
  a.toList.map Char.toLower == b.toList.map Char.toLower

end ScriptBridge
