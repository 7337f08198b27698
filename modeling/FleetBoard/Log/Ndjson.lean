import FleetBoard.Log.Lines

/-!
# Live logs as lines of JSON

A live log is passed on as text in which each entry is a JSON object on a line of its own. `source`
turns the frames of a log into pieces of that text as they arrive.
-/

namespace FleetBoard

/-- How a source ends. -/
inductive SourceEnd where
  | closed
  | failed (text : String)
  /-- It stays open and never answers again. -/
  | silent
  deriving DecidableEq, Repr

/-- A piece of what a source offers, and the wait for it. -/
structure Piece where
  wait : Nat
  bytes : List UInt8
  deriving DecidableEq, Repr

/-- A source of bytes: its pieces, then a wait and its end. -/
structure Source where
  pieces : List Piece
  wait : Nat := 0
  ending : SourceEnd
  deriving DecidableEq, Repr

namespace Source

def bytes (s : Source) : List UInt8 := s.pieces.flatMap (·.bytes)

def cons (p : Piece) (s : Source) : Source := { s with pieces := p :: s.pieces }

@[simp] theorem bytes_cons (p : Piece) (s : Source) : (s.cons p).bytes = p.bytes ++ s.bytes := rfl

@[simp] theorem ending_cons (p : Piece) (s : Source) : (s.cons p).ending = s.ending := rfl

end Source

namespace Ndjson

def line (e : LogEntry) : List Char := e.toJson.render ++ ['\n']

def text (entries : List LogEntry) : List Char := entries.flatMap line

def encode (entries : List LogEntry) : List UInt8 := Text.utf8 (text entries)

@[simp] theorem encode_nil : encode [] = [] := rfl

/-- Entries are encoded one after the other. -/
@[simp] theorem encode_append (xs ys : List LogEntry) :
    encode (xs ++ ys) = encode xs ++ encode ys := by
  rw [encode, text, List.flatMap_append, Text.utf8_append]
  rfl

/-- The pieces that entries make; no entries make no piece. -/
def pieceOf (wait : Nat) (entries : List LogEntry) : List Piece :=
  if entries.isEmpty then [] else [⟨wait, encode entries⟩]

/-- The pieces of the rest of a log. Each frame comes with the wait for it; a frame that completes
no entry makes the next piece come later by its wait. The end of the log completes the lines that
are begun, a failure discards them. -/
def sourceFrom (d : LineDecoder) (delay : Nat) (last : SourceEnd) :
    List (Nat × Except String Frame) → Source
  | [] =>
    match last with
    | .closed =>
      let entries := d.finish.1
      ⟨pieceOf delay entries, if entries.isEmpty then delay else 0, .closed⟩
    | _ => ⟨[], delay, last⟩
  | (wait, .ok frame) :: rest =>
    match d.push frame with
    | (entries, d) =>
      if entries.isEmpty then sourceFrom d (delay + wait) last rest
      else (sourceFrom d 0 last rest).cons ⟨delay + wait, encode entries⟩
  | (wait, .error text) :: _ => ⟨[], delay + wait, .failed text⟩

/-- The text of a log, as it arrives. -/
def source (last : SourceEnd) (items : List (Nat × Except String Frame)) : Source :=
  sourceFrom {} 0 last items

end Ndjson

end FleetBoard
