/-!
# Two's complement

Integers of any size as bytes, the least significant first. The highest bit of the last byte is the
sign, and more bytes of the sign change nothing, so that every integer has a shortest form.

- `TwosComplement.bytes`: the low bytes of a number, as many as are asked for.
- `TwosComplement.size`, `TwosComplement.shortest`: how many of them a number needs, and those.
- `TwosComplement.overwrite`: a buffer with bytes written over its beginning.
- `TwosComplement.buffer`: the shortest form of a number in a buffer that its sign fills.
- `TwosComplement.unsigned`: the number that bytes are when the highest bit is no sign.
-/

namespace ScriptBridge

namespace TwosComplement

/-- The low bytes of a number. Division rounds down, so a negative number runs out of bits other
than its sign as a positive one does. -/
def bytes : Int → Nat → List UInt8
  | _, 0 => []
  | n, length + 1 => UInt8.ofInt n :: bytes (n / 256) length

/-- How far a number lies from the nearest one whose bits are all its sign, zero or minus one. -/
def magnitude : Int → Nat
  | .ofNat m => m
  | .negSucc m => m

/-- How many bytes hold the magnitude of a number and a bit for its sign. -/
def size (n : Int) : Nat := (2 * magnitude n + 1).log2 / 8 + 1

/-- The bytes of a number, and no more of them than it needs. -/
def shortest (n : Int) : List UInt8 := bytes n (size n)

/-- The byte that repeats the sign of a number. -/
def signByte (n : Int) : UInt8 := if n < 0 then 0xff else 0

/-- A buffer after bytes were written over its beginning. Those that find no place are dropped. -/
def overwrite : List UInt8 → List UInt8 → List UInt8
  | _ :: buffer, b :: bs => b :: overwrite buffer bs
  | buffer, _ => buffer

/-- The shortest form of a number at the beginning of a buffer, the rest of which is its sign. -/
def buffer (n : Int) (length : Nat) : List UInt8 :=
  overwrite (List.replicate length (signByte n)) (shortest n)

/-- The number that bytes are, the highest bit counting as any other. -/
def unsigned : List UInt8 → Nat
  | [] => 0
  | b :: bs => b.toNat + 256 * unsigned bs

end TwosComplement

end ScriptBridge
