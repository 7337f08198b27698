/-!
# Blank characters and trimming

`isBlank` is the Unicode property White_Space. Trimming is defined for any class of characters,
since timestamps lose brackets and messages lose blanks by the same rule.
-/

namespace FleetBoard.Text

def isBlank (c : Char) : Bool :=
  let n := c.toNat
  (0x09 ≤ n && n ≤ 0x0d) || n == 0x20 || n == 0x85 || n == 0xa0 || n == 0x1680
    || (0x2000 ≤ n && n ≤ 0x200a) || n == 0x2028 || n == 0x2029 || n == 0x202f || n == 0x205f
    || n == 0x3000

/-- Drops the longest suffix whose elements all satisfy `p`. -/
def dropTail (p : α → Bool) (s : List α) : List α :=
  (s.reverse.dropWhile p).reverse

/-- Drops the elements of the class `p` from both ends. -/
def trimBy (p : α → Bool) (s : List α) : List α :=
  dropTail p (s.dropWhile p)

def trim (s : List Char) : List Char := trimBy isBlank s

/-- Nothing is left to trim when every character is blank, and only then. -/
def isAllBlank (s : List Char) : Bool := s.all isBlank

def trimString (s : String) : String := String.ofList (trim s.toList)

/-- The text before and the text after the first character that satisfies `p`, without it. -/
def splitFirst (p : α → Bool) (s : List α) : Option (List α × List α) :=
  match s.dropWhile (fun c => !p c) with
  | [] => none
  | _ :: rest => some (s.takeWhile (fun c => !p c), rest)

/-- The pieces between the elements that satisfy `p`; there is always at least one piece. -/
def splitAll (p : α → Bool) : List α → List (List α)
  | [] => [[]]
  | c :: s =>
    if p c then [] :: splitAll p s
    else match splitAll p s with
      | [] => [[c]]
      | piece :: pieces => (c :: piece) :: pieces

end FleetBoard.Text
