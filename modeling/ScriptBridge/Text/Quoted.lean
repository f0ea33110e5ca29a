import ScriptBridge.Unicode.Extender
import ScriptBridge.Unicode.Unprintable

/-!
# Quoted text and byte strings

Text and byte strings are shown between double quotes, with escapes for what would not show as
itself.

- `Quoted.showsAlone`: the characters that leave a mark of their own. Unprintable characters,
  Hangul fillers and extenders do not, but the halfwidth sound marks do.
- `Quoted.escapeChar`, `Quoted.text`: characters. What has no short escape and does not show alone
  is written by its code point.
- `Quoted.escapeByte`, `Quoted.bytes`: bytes. Everything outside printable ASCII is two hexadecimal
  digits.
-/

namespace ScriptBridge.Quoted

/-- The Hangul fillers: letters that stand for an absent one and are blank. -/
def hangulFillers : List Char := ['\u115f', '\u1160', '\u3164', '\uffa0']

/-- The voiced and the semi-voiced sound mark of halfwidth kana: extenders, but each with a cell of
its own. -/
def halfwidthSoundMarks : List Char := ['\uff9e', '\uff9f']

/-- Whether a character leaves a mark of its own, with nothing before it to attach to. -/
def showsAlone (c : Char) : Bool :=
  Unicode.isPrintable c && !hangulFillers.contains c &&
    (!Unicode.isGraphemeExtend c || halfwidthSoundMarks.contains c)

/-- The code point of a character in lower-case hexadecimal digits between braces. -/
def codePoint (c : Char) : List Char :=
  ['\\', 'u', '\x7b'] ++ Nat.toDigits 16 c.toNat ++ ['\x7d']

/-- A character inside double quotes. -/
def escapeChar (c : Char) : List Char :=
  match c with
  | '\x00' => ['\\', '0']
  | '\t' => ['\\', 't']
  | '\r' => ['\\', 'r']
  | '\n' => ['\\', 'n']
  | '\\' => ['\\', '\\']
  | '"' => ['\\', '"']
  | c => if showsAlone c then [c] else codePoint c

/-- Text between double quotes. -/
def text (s : String) : List Char := '"' :: s.toList.flatMap escapeChar ++ ['"']

/-- A byte in two lower-case hexadecimal digits. -/
def hexPair (b : UInt8) : List Char :=
  [Nat.digitChar (b.toNat / 16), Nat.digitChar (b.toNat % 16)]

/-- A byte inside double quotes. Both quotes are escaped, the single one too. -/
def escapeByte (b : UInt8) : List Char :=
  if b = 0x09 then ['\\', 't']
  else if b = 0x0D then ['\\', 'r']
  else if b = 0x0A then ['\\', 'n']
  else if b = 0x27 ∨ b = 0x22 ∨ b = 0x5C then ['\\', Char.ofNat b.toNat]
  else if 0x20 ≤ b ∧ b < 0x7F then [Char.ofNat b.toNat]
  else ['\\', 'x'] ++ hexPair b

/-- A byte string: double quotes after a `b`. -/
def bytes (bs : List UInt8) : List Char := ['b', '"'] ++ bs.flatMap escapeByte ++ ['"']

end ScriptBridge.Quoted
