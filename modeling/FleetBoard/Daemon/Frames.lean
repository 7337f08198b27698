import FleetBoard.Log.Entry
import FleetBoard.Transducer

/-!
# Log frames

A daemon sends the log of a container as frames: a header of eight bytes, of which the first is the
channel and the last four are the length, and then so many bytes of output. Where a header should
start, a byte that is no channel begins a plain line instead, which is taken with its line end.
-/

namespace FleetBoard.Daemon

/-- Where in the frames the reader stands. Bytes are held newest first. -/
inductive FrameStage where
  /-- In a header, or before one if there are no bytes. -/
  | header (bytes : List UInt8)
  /-- In the output of a frame, of which so many bytes are missing. -/
  | output (channel : Channel) (missing : Nat) (bytes : List UInt8)
  /-- In a plain line. -/
  | line (bytes : List UInt8)
  deriving DecidableEq, Repr

/-- The channel that a header names. -/
def channelOf (b : UInt8) : Channel := if b = 2 then .stderr else .stdout

def bigEndian (bytes : List UInt8) : Nat := bytes.foldl (fun n b => 256 * n + b.toNat) 0

def stepLine (bytes : List UInt8) (b : UInt8) : List Frame × FrameStage :=
  if b = 0x0a then ([⟨.stdout, (b :: bytes).reverse⟩], .header [])
  else ([], .line (b :: bytes))

/-- A header that is complete. An empty frame has no output to wait for. -/
def openFrame : List UInt8 → List Frame × FrameStage
  | [] => ([], .header [])
  | kind :: rest =>
    match bigEndian (rest.drop 3) with
    | 0 => ([⟨channelOf kind, []⟩], .header [])
    | length => ([], .output (channelOf kind) length [])

def stepFrame (stage : FrameStage) (b : UInt8) : List Frame × FrameStage :=
  match stage with
  | .header [] => if 2 < b then stepLine [] b else ([], .header [b])
  | .header bytes =>
    if bytes.length < 7 then ([], .header (b :: bytes)) else openFrame (b :: bytes).reverse
  | .output channel missing bytes =>
    if missing ≤ 1 then ([⟨channel, (b :: bytes).reverse⟩], .header [])
    else ([], .output channel (missing - 1) (b :: bytes))
  | .line bytes => stepLine bytes b

/-- Does the log break off here? A frame of which nothing but the header is there does not count. -/
def FrameStage.isBroken : FrameStage → Bool
  | .header bytes | .output _ _ bytes | .line bytes => !bytes.isEmpty

/-- The reading of frames. `none` at the end says that the log breaks off. -/
def frameReader : Transducer FrameStage UInt8 (Option Frame) where
  step stage b := ((stepFrame stage b).1.map some, (stepFrame stage b).2)
  finish stage := if stage.isBroken then [none] else []

/-- The frames of a log, and `none` after them if it breaks off. -/
def frames (body : List UInt8) : List (Option Frame) := frameReader.run (.header []) body

end FleetBoard.Daemon
