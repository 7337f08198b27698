import FleetBoard.Text.WordRanges
import FleetBoard.Transducer

/-!
# Words

A word is a maximal run of word characters. `words` lists them in order; what separates them is
lost.
-/

namespace FleetBoard.Text

def inRanges (ranges : List (Nat × Nat)) (n : Nat) : Bool :=
  ranges.any fun range => range.1 ≤ n && n ≤ range.2

/-- Letters, marks, decimal digits, connector punctuation and the join controls. -/
def isWordChar (c : Char) : Bool :=
  if c.toNat < 0x80 then c.isAlphanum || c == '_' else inRanges wordRanges c.toNat

/-- The reading of words: a state holds the letters of the word that is begun, newest first. -/
def wordReader : Transducer (List Char) Char (List Char) where
  step current c :=
    if isWordChar c then ([], c :: current)
    else (if current.isEmpty then [] else [current.reverse], [])
  finish current := if current.isEmpty then [] else [current.reverse]

/-- The maximal runs of word characters of a text. -/
def words (s : List Char) : List (List Char) := wordReader.run [] s

/-- Lower case for the letters `A` to `Z`; every other character stays. -/
def lowerAscii (s : List Char) : List Char := s.map Char.toLower

end FleetBoard.Text
