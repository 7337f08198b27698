import FleetBoard.Log.Entry
import FleetBoard.Text.Utf8

/-!
# Lines out of bytes

Bytes arrive in pieces that respect neither lines nor characters. A splitter holds the bytes of the
line that is begun and puts out each line that ends. A run of `LineSplitter.capacity` bytes without
a line end is put out as a line of its own, so what is held stays below that.
-/

namespace FleetBoard

/-- The bytes of the line that is begun. -/
structure LineSplitter where
  pending : Array UInt8 := #[]
  deriving DecidableEq, Repr

namespace LineSplitter

def capacity : Nat := 65536

def lineFeed : UInt8 := 0x0a

/-- The carriage return, which belongs to the line end when it is the last byte of a line. -/
def carriageReturn : UInt8 := 0x0d

/-- The text of a line that has ended: one carriage return at its end is dropped, and bytes that are
no UTF-8 are replaced. -/
def lineOf (bytes : Array UInt8) : String :=
  let kept := if bytes.back? = some carriageReturn then bytes.pop else bytes
  Text.lossyString kept.toList

def reader : Transducer LineSplitter UInt8 String where
  step s b :=
    if b = lineFeed then ([lineOf s.pending], {})
    else
      let pending := s.pending.push b
      if pending.size = capacity then ([lineOf pending], {}) else ([], ⟨pending⟩)
  finish s := if s.pending.isEmpty then [] else [lineOf s.pending]

def push (s : LineSplitter) (bytes : List UInt8) : List String × LineSplitter := reader.feed s bytes

@[simp] theorem push_nil (s : LineSplitter) : s.push [] = ([], s) := rfl

/-- Bytes complete the same lines whether they are pushed at once or in two pieces. -/
theorem push_append (s : LineSplitter) (xs ys : List UInt8) :
    s.push (xs ++ ys) =
      ((s.push xs).1 ++ ((s.push xs).2.push ys).1, ((s.push xs).2.push ys).2) :=
  reader.feed_append s xs ys

/-- The line that was begun and is ended by the end of the bytes. -/
def finish (s : LineSplitter) : Option String × LineSplitter :=
  if s.pending.isEmpty then (none, s) else (some (lineOf s.pending), {})

@[simp] theorem finish_line (s : LineSplitter) : s.finish.1.toList = reader.finish s := by
  simp only [finish, reader]
  split <;> rfl

@[simp] theorem finish_rest (s : LineSplitter) : s.finish.2 = {} := by
  cases s with
  | mk pending =>
      simp only [finish]
      split
      · next empty => simpa using empty
      · rfl

def size (s : LineSplitter) : Nat := s.pending.size

end LineSplitter

/-- The lines that are begun on the two channels of a container. -/
structure LineDecoder where
  stdout : LineSplitter := {}
  stderr : LineSplitter := {}
  deriving DecidableEq, Repr

namespace LineDecoder

/-- The entries of some lines; blank lines have none. -/
def classifyLines (channel : Channel) (lines : List String) : List LogEntry :=
  (lines.filter fun line => !Text.isAllBlank line.toList).map (LogEntry.classify channel)

def splitter (d : LineDecoder) : Channel → LineSplitter
  | .stdout => d.stdout
  | .stderr => d.stderr

def setSplitter (d : LineDecoder) (s : LineSplitter) : Channel → LineDecoder
  | .stdout => { d with stdout := s }
  | .stderr => { d with stderr := s }

@[simp] theorem splitter_setSplitter_same (d : LineDecoder) (s : LineSplitter) (channel : Channel) :
    (d.setSplitter s channel).splitter channel = s := by
  cases channel <;> rfl

theorem splitter_setSplitter_ne (d : LineDecoder) (s : LineSplitter) {channel other : Channel}
    (different : channel ≠ other) :
    (d.setSplitter s channel).splitter other = d.splitter other := by
  cases channel <;> cases other <;> simp_all [splitter, setSplitter]

def push (d : LineDecoder) (frame : Frame) : List LogEntry × LineDecoder :=
  let (lines, s) := (d.splitter frame.channel).push frame.data
  (classifyLines frame.channel lines, d.setSplitter s frame.channel)

/-- The entries of the lines that are ended by the end of the log, those of stdout first. -/
def finish (d : LineDecoder) : List LogEntry × LineDecoder :=
  let (out, stdout) := d.stdout.finish
  let (err, stderr) := d.stderr.finish
  (classifyLines .stdout out.toList ++ classifyLines .stderr err.toList, ⟨stdout, stderr⟩)

end LineDecoder

end FleetBoard
