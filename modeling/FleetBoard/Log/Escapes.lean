import FleetBoard.Text.Blank
import FleetBoard.Transducer

/-!
# Colour escapes

Programs colour their messages with sequences of the escape character, an opening bracket, digits
and semicolons, and an `m`. Messages are shown without them.
-/

namespace FleetBoard.Escapes

def escape : Char := '\x1b'

/-- May the character stand between the bracket and the `m`? -/
def isParameter (c : Char) : Bool := c.isDigit || c == ';'

/-- The reading of colour escapes: a state holds what has been read of one, newest first. What turns
out to be no escape is put out again; its last character may begin another. -/
def reader : Transducer (List Char) Char Char where
  step held c :=
    match held with
    | [] => if c = escape then ([], [c]) else ([c], [])
    | [_] =>
      if c = '[' then ([], c :: held)
      else if c = escape then (held, [c]) else (held ++ [c], [])
    | _ =>
      if c = 'm' then ([], [])
      else if isParameter c then ([], c :: held)
      else if c = escape then (held.reverse, [c]) else (held.reverse ++ [c], [])
  finish held := held.reverse

def strip (s : List Char) : List Char := reader.run [] s

/-- A message without colour escapes and without blanks around it. -/
def clean (message : List Char) : List Char := Text.trim (strip message)

end FleetBoard.Escapes
