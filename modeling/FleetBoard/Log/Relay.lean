import FleetBoard.Call.Lifetime
import FleetBoard.Log.Ndjson

/-!
# Relaying a live source

A relay reads from a source and writes each read to a consumer as it is, one read at a time: the
next is made only when the write has been taken and flushed. It stops when it is cancelled, when the
consumer is gone, and when the source ends. Before each read the cancellation is looked at first and
the consumer second. Before a write the cancellation is looked at once more, for the token may have
been cancelled since the read came; while a write or a flush takes time, only the cancellation is
looked at.
-/

namespace FleetBoard.Relay

def readSize : Nat := 32768

/-- What a relay asks for, in turn. -/
inductive Ask where
  | read | write | flush
  deriving DecidableEq, Repr

/-- What a consumer makes of a write or a flush. -/
inductive Reply where
  | accepts (wait : Nat)
  | refuses (wait : Nat)
  /-- It never answers; a write may have been taken all the same. -/
  | hangs (taken : Bool)
  deriving DecidableEq, Repr

/-- A consumer, and who else holds the token of the relay. Reads, writes and flushes are counted
from 1. -/
structure Sink where
  write : Nat → Reply := fun _ => .accepts 0
  flush : Nat → Reply := fun _ => .accepts 0
  /-- Does this write cancel the relay? -/
  cancelsOn : Nat → Bool := fun _ => false
  /-- Is the relay cancelled once it has what it asked for, before it asks for anything more? -/
  cancelsAfter : Ask → Nat → Bool := fun _ _ => false
  /-- The consumer is gone once so many writes have been made. -/
  goneAfter : Option Nat := none
  /-- The consumer is gone from this moment on. -/
  goneAt : Option Nat := none

/-- Why a relay stopped. -/
inductive End where
  | sourceClosed
  | consumerGone
  | cancelled
  /-- The source failed after something had been passed on. -/
  | sourceFailed
  deriving DecidableEq, Repr

/-- How a relay came out. -/
inductive Outcome where
  /-- The bytes and the writes that were taken and flushed, and why it stopped. -/
  | finished (bytes chunks : Nat) (ending : End)
  /-- The source failed before anything was passed on. -/
  | failed (error : LogError)
  /-- It waits for ever. -/
  | waiting
  deriving DecidableEq, Repr

/-- How far a relay has come. -/
structure Progress where
  now : Nat := 0
  cancelledAt : Option Nat := none
  /-- Writes and flushes that were made, whatever became of them. -/
  writes : Nat := 0
  flushes : Nat := 0
  /-- Bytes and writes that were taken and flushed. -/
  bytes : Nat := 0
  chunks : Nat := 0
  /-- The writes that were taken, newest first. -/
  taken : List (List UInt8) := []
  deriving DecidableEq, Repr

/-- A relay that has come to its end. -/
structure Report where
  outcome : Outcome
  progress : Progress
  deriving DecidableEq, Repr

namespace Progress

def isCancelled (p : Progress) : Bool := passed p.cancelledAt p.now

def isGone (p : Progress) (sink : Sink) : Bool :=
  (match sink.goneAfter with
    | some n => n ≤ p.writes
    | none => false) || passed sink.goneAt p.now

def stop (p : Progress) (ending : End) : Report := ⟨.finished p.bytes p.chunks ending, p⟩

def atMoment (p : Progress) (moment : Nat) : Progress := { p with now := moment }

/-- Cancels the relay now, if it is to be. -/
def cancelIf (p : Progress) (cancels : Bool) : Progress :=
  { p with cancelledAt := if cancels then earlier p.cancelledAt (some p.now) else p.cancelledAt }

/-- The read that is waited for has come. -/
def arrive (sink : Sink) (p : Progress) (moment : Nat) : Progress :=
  (p.atMoment moment).cancelIf (sink.cancelsAfter .read (p.writes + 1))

end Progress

/-- What comes first while the relay waits for a read. -/
inductive ReadEvent where
  | cancelled (moment : Nat)
  | gone (moment : Nat)
  | ready (moment : Nat)
  | never
  deriving DecidableEq, Repr

def noLater (moment other : Option Nat) : Bool :=
  match moment, other with
  | some a, some b => a ≤ b
  | some _, none => true
  | none, _ => false

def awaitRead (sink : Sink) (p : Progress) (wait : Option Nat) : ReadEvent :=
  if p.isCancelled then .cancelled p.now
  else if p.isGone sink then .gone p.now
  else
    let ready := wait.map (p.now + ·)
    if noLater p.cancelledAt sink.goneAt && noLater p.cancelledAt ready then
      .cancelled (p.cancelledAt.getD p.now)
    else if noLater sink.goneAt ready then .gone (sink.goneAt.getD p.now)
    else match ready with
      | some m => .ready m
      | none => .never

/-- What becomes of a write or a flush. -/
inductive Delivery where
  | taken (moment : Nat)
  | refused (moment : Nat)
  | cancelled (moment : Nat)
  | never
  deriving DecidableEq, Repr

/-- Waits for the reply of the consumer. A reply that comes at once is not interrupted. -/
def awaitReply (p : Progress) (reply : Reply) : Delivery :=
  let interrupted (wait : Nat) : Bool := wait ≠ 0 && passed p.cancelledAt (p.now + wait)
  let moment := max p.now (p.cancelledAt.getD p.now)
  match reply with
  | .accepts wait => if interrupted wait then .cancelled moment else .taken (p.now + wait)
  | .refuses wait => if interrupted wait then .cancelled moment else .refused (p.now + wait)
  | .hangs _ => if p.cancelledAt.isSome then .cancelled moment else .never

/-- Is the chunk in the consumer's hands, whatever its reply is to be? -/
def Reply.takes : Reply → Bool
  | .accepts _ => true
  | .refuses _ => false
  | .hangs taken => taken

/-- Makes a write: it is counted, it may cancel the relay, and the chunk may be taken. -/
def makeWrite (sink : Sink) (p : Progress) (chunk : List UInt8) : Progress :=
  let n := p.writes + 1
  { p.cancelIf (sink.cancelsOn n) with
    writes := n
    taken := if (sink.write n).takes then chunk :: p.taken else p.taken }

/-- The outcome of a step that either stops the relay or lets it go on. -/
inductive Step where
  | stopped (report : Report)
  | onward (p : Progress)

/-- Goes on with what becomes of a write or a flush. -/
def deliver (p : Progress) (delivery : Delivery) (next : Progress → Step) : Step :=
  match delivery with
  | .taken m => next (p.atMoment m)
  | .refused m => .stopped ((p.atMoment m).stop .consumerGone)
  | .cancelled m => .stopped ((p.atMoment m).stop .cancelled)
  | .never => .stopped ⟨.waiting, p⟩

def forward (sink : Sink) (p : Progress) (chunk : List UInt8) : Step :=
  let p := makeWrite sink p chunk
  deliver p (awaitReply p (sink.write p.writes)) fun p =>
    let p := { p.cancelIf (sink.cancelsAfter .write p.writes) with flushes := p.flushes + 1 }
    deliver p (awaitReply p (sink.flush p.flushes)) fun p =>
      .onward { p.cancelIf (sink.cancelsAfter .flush p.flushes) with
        bytes := p.bytes + chunk.length
        chunks := p.chunks + 1 }

def finish (sink : Sink) (wait : Nat) (ending : SourceEnd) (p : Progress) : Report :=
  match awaitRead sink p (if ending = .silent then none else some wait) with
  | .cancelled m => (p.atMoment m).stop .cancelled
  | .gone m => (p.atMoment m).stop .consumerGone
  | .never => ⟨.waiting, p⟩
  | .ready m =>
    match ending with
    | .failed text =>
      if p.bytes = 0 then ⟨.failed (.source text), p.atMoment m⟩
      else (p.atMoment m).stop .sourceFailed
    | _ => (p.atMoment m).stop .sourceClosed

/-- Relays reads, each of which is neither empty nor larger than `readSize`. A chunk is not written
if the token is cancelled by then. -/
def relayReads (sink : Sink) (wait : Nat) (ending : SourceEnd) : Progress → List Piece → Report
  | p, [] => finish sink wait ending p
  | p, r :: reads =>
    match awaitRead sink p (some r.wait) with
    | .cancelled m => (p.atMoment m).stop .cancelled
    | .gone m => (p.atMoment m).stop .consumerGone
    | .never => ⟨.waiting, p⟩
    | .ready m =>
      let p := p.arrive sink m
      if p.isCancelled then p.stop .cancelled
      else match forward sink p r.bytes with
        | .stopped report => report
        | .onward p => relayReads sink wait ending p reads

def cut (bytes : List UInt8) : List (List UInt8) :=
  if _ : bytes = [] then []
  else bytes.take readSize :: cut (bytes.drop readSize)
termination_by bytes.length
decreasing_by
  have : 0 < bytes.length := List.length_pos_iff.2 ‹_›
  simp [readSize]
  omega

def readsOfPiece (wait : Nat) (bytes : List UInt8) : List Piece :=
  match cut bytes with
  | [] => []
  | first :: more => ⟨wait, first⟩ :: more.map fun b => ⟨0, b⟩

/-- The reads of a source, and the wait for its end. An empty piece is passed over. -/
def reads (delay : Nat) : List Piece → List Piece × Nat
  | [] => ([], delay)
  | p :: pieces =>
    match readsOfPiece (delay + p.wait) p.bytes with
    | [] => reads (delay + p.wait) pieces
    | rs =>
      match reads 0 pieces with
      | (more, rest) => (rs ++ more, rest)

def run (source : Source) (sink : Sink) (cancelledAt : Option Nat := none) (now : Nat := 0) :
    Report :=
  match reads 0 source.pieces with
  | (rs, wait) =>
    relayReads sink (wait + source.wait) source.ending { now := now, cancelledAt := cancelledAt } rs

end FleetBoard.Relay
