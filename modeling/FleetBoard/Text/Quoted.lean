import FleetBoard.Text.Word
import FleetBoard.Text.EscapedRanges

/-!
# Quoted text

The form in which messages quote a text that came from outside: between double quotes, with every
character escaped that could not be seen or would end the quotation.
-/

namespace FleetBoard.Text

def hexDigits (n : Nat) : List Char := Nat.toDigits 16 n

/-- Has the character no visible form of its own? -/
def isEscaped (c : Char) : Bool :=
  c.toNat < 0x20 || (0x7f ≤ c.toNat && inRanges escapedRanges c.toNat)

/-- One character as it is written between the quotes. -/
def quoteChar (c : Char) : List Char :=
  if c = '"' then ['\\', '"']
  else if c = '\\' then ['\\', '\\']
  else if c = '\t' then ['\\', 't']
  else if c = '\r' then ['\\', 'r']
  else if c = '\n' then ['\\', 'n']
  else if c.toNat = 0 then ['\\', '0']
  else if isEscaped c then ['\\', 'u', '\x7b'] ++ hexDigits c.toNat ++ ['\x7d']
  else [c]

/-- A text between double quotes. -/
def quoted (s : String) : String :=
  String.ofList ('"' :: s.toList.flatMap quoteChar ++ ['"'])

end FleetBoard.Text
