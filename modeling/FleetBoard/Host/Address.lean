import FleetBoard.Decimal.Reading
import FleetBoard.Text.Quoted

/-!
# Socket addresses

The address that a server listens at: a number of a machine and a port. The number has four parts of
eight bits with points between them, or eight parts of sixteen bits in brackets with colons between
them, where one run of zeros may be left out.
-/

namespace FleetBoard

/-- The number of a machine. -/
inductive MachineAddress where
  | v4 (a b c d : Nat)
  /-- Eight parts, and the number of the link on which the address is meant, if it is not zero. -/
  | v6 (parts : List Nat) (scope : Nat)
  deriving DecidableEq, Repr

/-- A machine and a port. -/
structure SocketAddress where
  machine : MachineAddress
  port : Nat
  deriving DecidableEq, Repr

namespace SocketAddress

/-- A reader takes something off the front of a text. -/
abbrev Reader (α : Type) := List Char → Option (α × List Char)

def readChar (c : Char) : Reader Unit
  | d :: s => if c = d then some ((), s) else none
  | [] => none

def hexDigit? (c : Char) : Option Nat :=
  if c.isDigit then some (c.toNat - '0'.toNat)
  else if 'a' ≤ c ∧ c ≤ 'f' then some (c.toNat - 'a'.toNat + 10)
  else if 'A' ≤ c ∧ c ≤ 'F' then some (c.toNat - 'A'.toNat + 10)
  else none

def readDecimal (limit : Nat) : Reader Nat := fun s =>
  let digits := s.takeWhile Char.isDigit
  if digits.isEmpty || limit < Decimal.ofDigits digits then none
  else some (Decimal.ofDigits digits, s.dropWhile Char.isDigit)

/-- An octet: up to three digits, without zeros in front. -/
def readOctet : Reader Nat := fun s =>
  let digits := s.takeWhile Char.isDigit
  if 3 < digits.length || (1 < digits.length && digits.head? == some '0') then none
  else readDecimal 255 s

/-- Four octets with points between them. -/
def readV4 : Reader (Nat × Nat × Nat × Nat) := fun s => do
  let (a, s) ← readOctet s
  let (_, s) ← readChar '.' s
  let (b, s) ← readOctet s
  let (_, s) ← readChar '.' s
  let (c, s) ← readOctet s
  let (_, s) ← readChar '.' s
  let (d, s) ← readOctet s
  return ((a, b, c, d), s)

/-- A part of sixteen bits: up to four digits of sixteen. -/
def readPart : Reader Nat := fun s =>
  let digits := s.takeWhile fun c => (hexDigit? c).isSome
  if digits.isEmpty || 4 < digits.length then none
  else some (digits.foldl (fun n c => 16 * n + (hexDigit? c).getD 0) 0, s.drop digits.length)

/-- What stands between parts: a colon, except in front of the first. -/
def readColon (first : Bool) : Reader Unit :=
  fun s => if first then some ((), s) else readChar ':' s

/-- As many parts as there are, up to a limit; the last two may be written as four octets. Says
whether they are. -/
def readParts : (limit : Nat) → (first : Bool) → List Char → List Nat × Bool × List Char
  | 0, _, s => ([], false, s)
  | limit + 1, first, s =>
    let octets := if limit = 0 then none else (readColon first s).bind fun (_, s) => readV4 s
    match octets with
    | some ((a, b, c, d), s) => ([256 * a + b, 256 * c + d], true, s)
    | none =>
      match (readColon first s).bind fun (_, s) => readPart s with
      | none => ([], false, s)
      | some (part, s) =>
        match readParts limit false s with
        | (parts, octets, s) => (part :: parts, octets, s)

def readV6 : Reader (List Nat) := fun s =>
  match readParts 8 true s with
  | (front, octets, s) =>
    if front.length = 8 then some (front, s)
    else if octets then none
    else do
      let (_, s) ← readChar ':' s
      let (_, s) ← readChar ':' s
      match readParts (7 - front.length) true s with
      | (back, _, s) =>
        return (front ++ List.replicate (8 - front.length - back.length) 0 ++ back, s)

def readScope : Reader Nat := fun s =>
  match s with
  | '%' :: digits => readDecimal (UInt32.size - 1) digits
  | _ => some (0, s)

def readPort : Reader Nat := fun s => do
  let (_, s) ← readChar ':' s
  readDecimal 65535 s

def readSocketV4 : Reader SocketAddress := fun s => do
  let ((a, b, c, d), s) ← readV4 s
  let (port, s) ← readPort s
  return (⟨.v4 a b c d, port⟩, s)

def readSocketV6 : Reader SocketAddress := fun s => do
  let (_, s) ← readChar '[' s
  let (parts, s) ← readV6 s
  let (scope, s) ← readScope s
  let (_, s) ← readChar ']' s
  let (port, s) ← readPort s
  return (⟨.v6 parts scope, port⟩, s)

def parse? (text : String) : Option SocketAddress :=
  match (readSocketV4 text.toList).orElse fun _ => readSocketV6 text.toList with
  | some (address, []) => some address
  | _ => none

/-- The length of the run of zeros that begins each part. -/
def zeroRuns : List Nat → List Nat
  | [] => []
  | part :: parts =>
    match zeroRuns parts with
    | [] => [if part = 0 then 1 else 0]
    | run :: runs => (if part = 0 then run + 1 else 0) :: run :: runs

def writeParts (parts : List Nat) : String :=
  ":".intercalate (parts.map fun n => String.ofList (Text.hexDigits n))

def writeOctets (a b c d : Nat) : String := ".".intercalate ([a, b, c, d].map toString)

/-- Eight parts. The first of the longest runs of two or more zeros is left out. An address that
stands for one of four octets ends with them. -/
def writeV6 (parts : List Nat) : String :=
  match parts with
  | [0, 0, 0, 0, 0, 65535, x, y] =>
    "::ffff:" ++ writeOctets (x / 256) (x % 256) (y / 256) (y % 256)
  | _ =>
    let runs := zeroRuns parts
    let longest := runs.foldl max 0
    if longest ≤ 1 then writeParts parts
    else
      let start := runs.idxOf longest
      writeParts (parts.take start) ++ "::" ++ writeParts (parts.drop (start + longest))

def write (a : SocketAddress) : String :=
  let machine := match a.machine with
    | .v4 a b c d => writeOctets a b c d
    | .v6 parts scope =>
      "[" ++ writeV6 parts ++ (if scope = 0 then "" else "%" ++ toString scope) ++ "]"
  machine ++ ":" ++ toString a.port

end SocketAddress

end FleetBoard
