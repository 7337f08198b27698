import FleetBoard.Decimal.Reading
import FleetBoard.Json.Value
import FleetBoard.Text.Utf8

/-!
# JSON tokens

The text of a document as a sequence of tokens, read byte by byte. Where the bytes stop making sense
a `bad` token stands, and nothing after it is read. Text that ends inside a token ends with a `cut`
one.
-/

namespace FleetBoard.Json

/-- The bytes that the grammar gives a role. -/
inductive Token where
  | openBrace | closeBrace | openBracket | closeBracket | colon | comma
  | null
  | bool (b : Bool)
  /-- A number, or nothing when it is beyond the reach of any double. -/
  | number (value : Option Json)
  /-- The contents of a string, or nothing when they are no text: stray surrogates, invalid
  UTF-8. -/
  | text (value : Option String)
  /-- The document is malformed here. -/
  | bad
  /-- The text ends inside a token, perhaps a string. -/
  | cut (isText : Bool)
  deriving Inhabited

/-- Where in a number the reader stands. -/
inductive NumberStage where
  | minus | zero | whole | point | fraction | exponent | exponentSign | exponentDigits
  deriving DecidableEq, Repr

namespace NumberStage

def isFinal : NumberStage → Bool
  | .zero | .whole | .fraction | .exponentDigits => true
  | _ => false

/-- The stage after one more character, if the character belongs to the number. -/
def next (stage : NumberStage) (c : Char) : Option NumberStage :=
  match stage with
  | .minus => if c = '0' then some .zero else if c.isDigit then some .whole else none
  | .zero =>
    if c = '.' then some .point else if c = 'e' ∨ c = 'E' then some .exponent else none
  | .whole =>
    if c.isDigit then some .whole
    else if c = '.' then some .point else if c = 'e' ∨ c = 'E' then some .exponent else none
  | .point => if c.isDigit then some .fraction else none
  | .fraction =>
    if c.isDigit then some .fraction else if c = 'e' ∨ c = 'E' then some .exponent else none
  | .exponent =>
    if c = '+' ∨ c = '-' then some .exponentSign
    else if c.isDigit then some .exponentDigits else none
  | .exponentSign | .exponentDigits => if c.isDigit then some .exponentDigits else none

end NumberStage

/-- Takes digits, after those of `n`, as long as the number that they write has 64 bits. The digits
that are not taken are left over. -/
def takeWord (n : Nat) : List Char → Nat × List Char
  | [] => (n, [])
  | c :: s =>
    let next := 10 * n + (c.toNat - '0'.toNat)
    if next ≤ Decimal.maxWord then takeWord next s else (n, c :: s)

def powerOfTen (e : Nat) : Float := Float.ofScientific 1 false e

/-- A number from 0 on times a power of ten, by one operation on doubles, or by two where the power
is too small to divide by it at once. Nothing is given beyond every double. -/
def scale (x : Float) : Int → Option Float
  | .ofNat e =>
    let y := x * powerOfTen e
    if x == 0 then some 0 else if e ≤ 308 && y.isFinite then some y else none
  | .negSucc e =>
    if e < 308 then some (x / powerOfTen (e + 1))
    else if e < 616 then some (x / powerOfTen 308 / powerOfTen (e + 1 - 308))
    else some 0

/-- A number without sign as a double. What is scaled is the number that the first digits write, as
many as have 64 bits; the digits after them count by their places alone. The result is the nearest
double where all digits fit 53 bits and the power of ten is at most the 22nd, and else may be its
neighbour. -/
def readDouble? (s : List Char) : Option Float :=
  match Decimal.splitDecimal? s with
  | some (whole, fraction, exponent) =>
    let (n, moreWhole) := takeWord 0 whole
    let (n, moreFraction) := takeWord n fraction
    scale n.toFloat (exponent + moreWhole.length + moreFraction.length - fraction.length)
  | none => none

/-- A whole number stays exact while it fits 64 bits, with or without sign; any other number, and
minus zero, is a float. Nothing is given for a number beyond every double. -/
def numberOfText (s : List Char) : Option Json :=
  let (negative, digits) := match s with
    | '-' :: digits => (true, digits)
    | _ => (false, s)
  let exact : Option Int :=
    match Decimal.readNat? digits with
    | some n =>
      if negative then if n ≠ 0 ∧ n ≤ Nat.pow 2 63 then some (-(n : Int)) else none
      else if n ≤ Decimal.maxWord then some n else none
    | none => none
  match exact with
  | some n => some (.int n)
  | none => (readDouble? digits).map fun x => .float (if negative then -x else x)

/-- What has been read of a string: its bytes, newest first, whether it still is text, and a leading
surrogate that waits for its partner. -/
structure PartialText where
  bytes : List UInt8
  sound : Bool
  lead : Option Nat

namespace PartialText

def empty : PartialText := ⟨[], true, none⟩

/-- A byte as it stands, or a character that a short escape names. -/
def push (t : PartialText) (b : UInt8) : PartialText :=
  ⟨b :: t.bytes, t.sound && t.lead.isNone, none⟩

/-- A code unit written as four hexadecimal digits. -/
def pushUnit (t : PartialText) (n : Nat) : PartialText :=
  let pushChar (n : Nat) : List UInt8 := (Text.utf8Char (Char.ofNat n)).reverse ++ t.bytes
  let isLead := 0xd800 ≤ n ∧ n ≤ 0xdbff
  let isTrail := 0xdc00 ≤ n ∧ n ≤ 0xdfff
  match t.lead with
  | some lead =>
    if isTrail then ⟨pushChar (0x10000 + (lead - 0xd800) * 0x400 + (n - 0xdc00)), t.sound, none⟩
    else ⟨t.bytes, false, none⟩
  | none =>
    if isLead then ⟨t.bytes, t.sound, some n⟩
    else if isTrail then ⟨t.bytes, false, none⟩
    else ⟨pushChar n, t.sound, none⟩

def close (t : PartialText) : Option String :=
  if t.sound && t.lead.isNone then Text.strictString? t.bytes.reverse else none

end PartialText

/-- Where in the text the tokenizer stands. -/
inductive Stage where
  /-- Between two tokens. -/
  | between
  /-- In a number whose characters so far are given newest first. -/
  | number (stage : NumberStage) (chars : List Char)
  /-- In a string. -/
  | text (t : PartialText)
  /-- After a backslash. -/
  | escape (t : PartialText)
  /-- In the digits of an escaped code unit. -/
  | unit (t : PartialText) (count value : Nat)
  /-- In one of the words, with the letters still to come. -/
  | word (rest : List Char) (token : Token)
  /-- After a fault. -/
  | stopped

def hexValue? (c : Char) : Option Nat :=
  if c.isDigit then some (c.toNat - '0'.toNat)
  else if 'a' ≤ c ∧ c ≤ 'f' then some (c.toNat - 'a'.toNat + 10)
  else if 'A' ≤ c ∧ c ≤ 'F' then some (c.toNat - 'A'.toNat + 10)
  else none

def shortEscape? (c : Char) : Option UInt8 :=
  match c with
  | '"' => some 0x22
  | '\\' => some 0x5c
  | '/' => some 0x2f
  | 'b' => some 0x08
  | 'f' => some 0x0c
  | 'n' => some 0x0a
  | 'r' => some 0x0d
  | 't' => some 0x09
  | _ => none

namespace Token

def stepBetween (c : Char) : List Token × Stage :=
  if c = ' ' ∨ c = '\n' ∨ c = '\t' ∨ c = '\r' then ([], .between)
  else if c = '\x7b' then ([.openBrace], .between)
  else if c = '\x7d' then ([.closeBrace], .between)
  else if c = '[' then ([.openBracket], .between)
  else if c = ']' then ([.closeBracket], .between)
  else if c = ':' then ([.colon], .between)
  else if c = ',' then ([.comma], .between)
  else if c = '"' then ([], .text .empty)
  else if c = '-' then ([], .number .minus [c])
  else if c = '0' then ([], .number .zero [c])
  else if c.isDigit then ([], .number .whole [c])
  else if c = 'n' then ([], .word "ull".toList .null)
  else if c = 't' then ([], .word "rue".toList (.bool true))
  else if c = 'f' then ([], .word "alse".toList (.bool false))
  else ([.bad], .stopped)

/-- One byte at any place. Outside strings a byte is looked at as the character with its code, which
decides nothing for bytes beyond ASCII. -/
def step (stage : Stage) (b : UInt8) : List Token × Stage :=
  let c := Char.ofNat b.toNat
  match stage with
  | .between => stepBetween c
  | .number s chars =>
    match s.next c with
    | some s' => ([], .number s' (c :: chars))
    | none =>
      if !s.isFinal || (s == .zero && c.isDigit) then ([.bad], .stopped)
      else
        let r := stepBetween c
        (.number (numberOfText chars.reverse) :: r.1, r.2)
  | .text t =>
    if c = '"' then ([.text t.close], .between)
    else if c = '\\' then ([], .escape t)
    else if b < 0x20 then ([.bad], .stopped)
    else ([], .text (t.push b))
  | .escape t =>
    match shortEscape? c with
    | some b' => ([], .text (t.push b'))
    | none => if c = 'u' then ([], .unit t 0 0) else ([.bad], .stopped)
  | .unit t count value =>
    match hexValue? c with
    | some d =>
      if count = 3 then ([], .text (t.pushUnit (16 * value + d)))
      else ([], .unit t (count + 1) (16 * value + d))
    | none => ([.bad], .stopped)
  | .word [] token => ([token, .bad], .stopped)
  | .word [e] token => if c = e then ([token], .between) else ([.bad], .stopped)
  | .word (e :: rest) token => if c = e then ([], .word rest token) else ([.bad], .stopped)
  | .stopped => ([], .stopped)

/-- The reading of tokens. Of the tokens that the end of the text meets only a number may be
whole. -/
def reader : Transducer Stage UInt8 Token where
  step := step
  finish
    | .between | .stopped => []
    | .number s chars => if s.isFinal then [.number (numberOfText chars.reverse)] else [.cut false]
    | .word _ _ => [.cut false]
    | .text _ | .escape _ | .unit _ _ _ => [.cut true]

def scan (bytes : List UInt8) : List Token := reader.run .between bytes

end Token

end FleetBoard.Json
