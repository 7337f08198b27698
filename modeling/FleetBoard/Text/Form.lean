import FleetBoard.Text.Blank
import FleetBoard.Text.Percent

/-!
# Form encoding

Names and values as they are written in the query of an address: pairs with `&` between them, a plus
sign for a blank, and percent escapes.
-/

namespace FleetBoard.Text.Form

def isPlain (b : UInt8) : Bool :=
  isAlphanumericByte b || b == 0x2a || b == 0x2d || b == 0x2e || b == 0x5f || b == 0x20

def encodeText (s : String) : String :=
  lossyString ((escapeBytes isPlain (utf8String s)).map fun b => if b == 0x20 then 0x2b else b)

def encode (pairs : List (String × String)) : String :=
  "&".intercalate (pairs.map fun (name, value) => encodeText name ++ "=" ++ encodeText value)

/-- Reads a name or a value. What is no UTF-8 is replaced. -/
def decodeText (bytes : List UInt8) : String :=
  lossyString (unescapeBytes (bytes.map fun b => if b == 0x2b then 0x20 else b))

/-- Reads a pair. Without an equals sign its value is empty. -/
def decodePair (bytes : List UInt8) : String × String :=
  match splitFirst (· == 0x3d) bytes with
  | some (name, value) => (decodeText name, decodeText value)
  | none => (decodeText bytes, "")

/-- Reads pairs; empty ones are passed over. -/
def decode (bytes : List UInt8) : List (String × String) :=
  ((splitAll (· == 0x26) bytes).filter fun piece => !piece.isEmpty).map decodePair

end FleetBoard.Text.Form
