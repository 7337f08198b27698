import FleetBoard.Text.Utf8

/-!
# Percent escapes

In addresses a byte may be written as a percent sign and two hexadecimal digits. `escapeBytes`
writes the bytes outside a class so, `unescapeBytes` reads them back. A percent sign without two
digits after it stands for itself.
-/

namespace FleetBoard.Text

def hexByte? (b : UInt8) : Option UInt8 :=
  if 0x30 ≤ b ∧ b ≤ 0x39 then some (b - 0x30)
  else if 0x61 ≤ b ∧ b ≤ 0x66 then some (b - 0x61 + 10)
  else if 0x41 ≤ b ∧ b ≤ 0x46 then some (b - 0x41 + 10)
  else none

def upperHex (n : UInt8) : UInt8 := if n < 10 then 0x30 + n else 0x41 + (n - 10)

def isAlphanumericByte (b : UInt8) : Bool :=
  (0x30 ≤ b && b ≤ 0x39) || (0x41 ≤ b && b ≤ 0x5a) || (0x61 ≤ b && b ≤ 0x7a)

/-- Writes the bytes outside the class `keep` as escapes. -/
def escapeBytes (keep : UInt8 → Bool) (bytes : List UInt8) : List UInt8 :=
  bytes.flatMap fun b => if keep b then [b] else [0x25, upperHex (b / 16), upperHex (b % 16)]

/-- The byte that three bytes stand for if they are an escape. -/
def escaped? (c a b : UInt8) : Option UInt8 :=
  if c = 0x25 then
    match hexByte? a, hexByte? b with
    | some x, some y => some (16 * x + y)
    | _, _ => none
  else none

def unescapeBytes : List UInt8 → List UInt8
  | c :: a :: b :: tail =>
    match escaped? c a b with
    | some x => x :: unescapeBytes tail
    | none => c :: unescapeBytes (a :: b :: tail)
  | rest => rest

/-- The bytes of a path that are written as they are. -/
def isPathByte (b : UInt8) : Bool :=
  0x21 ≤ b && b ≤ 0x7e &&
    !([0x22, 0x23, 0x3c, 0x3e, 0x3f, 0x60, 0x7b, 0x7d] : List UInt8).contains b

def escapeSegment (s : String) : String := lossyString (escapeBytes isPathByte (utf8String s))

end FleetBoard.Text
