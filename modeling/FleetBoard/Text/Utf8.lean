import FleetBoard.Transducer

/-!
# UTF-8

Encoding, strict decoding, and decoding that puts the replacement character in place of each maximal
part of the bytes that is no beginning of a character.
-/

namespace FleetBoard.Text

/-- The character that stands for bytes that cannot be read. -/
def replacement : Char := '\ufffd'

def utf8Char (c : Char) : List UInt8 :=
  let n := c.toNat
  if n < 0x80 then [n.toUInt8]
  else if n < 0x800 then [(0xc0 + n / 0x40).toUInt8, (0x80 + n % 0x40).toUInt8]
  else if n < 0x10000 then
    [(0xe0 + n / 0x1000).toUInt8, (0x80 + n / 0x40 % 0x40).toUInt8, (0x80 + n % 0x40).toUInt8]
  else
    [(0xf0 + n / 0x40000).toUInt8, (0x80 + n / 0x1000 % 0x40).toUInt8,
      (0x80 + n / 0x40 % 0x40).toUInt8, (0x80 + n % 0x40).toUInt8]

def utf8 (s : List Char) : List UInt8 := s.flatMap utf8Char

theorem utf8_append (xs ys : List Char) : utf8 (xs ++ ys) = utf8 xs ++ utf8 ys :=
  List.flatMap_append

/-- What a decoder knows of a character that it has begun: the bits so far, how many bytes are
missing, and the range in which the next byte has to lie. -/
structure Utf8Partial where
  bits : Nat
  missing : Nat
  low : UInt8
  high : UInt8
  deriving Repr, DecidableEq

/-- How a byte can begin a character. -/
inductive Utf8Lead where
  /-- The byte is a character by itself. -/
  | whole (c : Char)
  /-- More bytes follow. -/
  | partly (p : Utf8Partial)
  /-- No character begins with the byte. -/
  | invalid

/-- The role of a byte where a character should begin. The range of the second byte keeps out
overlong forms, surrogates, and code points above `0x10ffff`. -/
def utf8Lead (b : UInt8) : Utf8Lead :=
  let n := b.toNat
  if n < 0x80 then .whole (Char.ofNat n)
  else if 0xc2 ≤ n ∧ n ≤ 0xdf then .partly ⟨n - 0xc0, 1, 0x80, 0xbf⟩
  else if n = 0xe0 then .partly ⟨0, 2, 0xa0, 0xbf⟩
  else if n = 0xed then .partly ⟨0xd, 2, 0x80, 0x9f⟩
  else if 0xe1 ≤ n ∧ n ≤ 0xef then .partly ⟨n - 0xe0, 2, 0x80, 0xbf⟩
  else if n = 0xf0 then .partly ⟨0, 3, 0x90, 0xbf⟩
  else if n = 0xf4 then .partly ⟨4, 3, 0x80, 0x8f⟩
  else if 0xf1 ≤ n ∧ n ≤ 0xf3 then .partly ⟨n - 0xf0, 3, 0x80, 0xbf⟩
  else .invalid

/-- The reading of UTF-8: a state holds the character that is begun, if any. Each character that
ends is put out as `some`, and each maximal unreadable part as `none`. -/
def utf8Reader : Transducer (Option Utf8Partial) UInt8 (Option Char) where
  step
    | none, b =>
      match utf8Lead b with
      | .whole c => ([some c], none)
      | .partly p => ([], some p)
      | .invalid => ([none], none)
    | some p, b =>
      if p.low ≤ b ∧ b ≤ p.high then
        let bits := p.bits * 0x40 + (b.toNat - 0x80)
        if p.missing ≤ 1 then ([some (Char.ofNat bits)], none)
        else ([], some ⟨bits, p.missing - 1, 0x80, 0xbf⟩)
      else
        match utf8Lead b with
        | .whole c => ([none, some c], none)
        | .partly q => ([none], some q)
        | .invalid => ([none, none], none)
  finish
    | none => []
    | some _ => [none]

/-- Decodes bytes, with one replacement character for each maximal unreadable part. -/
def utf8Lossy (bytes : List UInt8) : List Char :=
  (utf8Reader.run none bytes).map (·.getD replacement)

def utf8Strict? (bytes : List UInt8) : Option (List Char) :=
  (utf8Reader.run none bytes).mapM id

def utf8String (s : String) : List UInt8 := utf8 s.toList

def lossyString (bytes : List UInt8) : String := String.ofList (utf8Lossy bytes)

def strictString? (bytes : List UInt8) : Option String := (utf8Strict? bytes).map String.ofList

end FleetBoard.Text
