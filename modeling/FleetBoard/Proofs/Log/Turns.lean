import FleetBoard.Log.Relay

/-!
# The turns of a relay

A relay goes round: it waits for a read, looks at the token once more, writes what was read to the
consumer and flushes. What passes between the relay and its surroundings is recorded as a list of
events, in the order in which it happens. The events are read off the same run that makes the
report, and the report counts them (`report_counts_events`).

`Run` says everything that can become of a relay, one rule for each way in which a round can go, and
`run_spec` that the relay follows it. Properties of whole runs are inductions on `Run`.
-/

namespace FleetBoard.Relay

/-- Something that a relay waits for or asks of the consumer, with what came of it. Writes and
flushes carry the number under which the consumer counts them. -/
inductive Event where
  /-- The wait for a read, or for the end of the source. -/
  | read (came : ReadEvent)
  /-- A chunk is not written, since the token is found cancelled. -/
  | withheld (moment : Nat)
  | write (number : Nat) (chunk : List UInt8) (came : Delivery)
  | flush (number : Nat) (came : Delivery)
  deriving DecidableEq, Repr

namespace Event

def succeeds : Event → Bool
  | .read (.ready _) | .write _ _ (.taken _) | .flush _ (.taken _) => true
  | _ => false

def chunk? : Event → Option (List UInt8)
  | .write _ chunk _ => some chunk
  | _ => none

/-- The chunk of a write that the consumer takes, whatever it answers then. -/
def takenChunk? (sink : Sink) : Event → Option (List UInt8)
  | .write number chunk _ => if (sink.write number).takes then some chunk else none
  | _ => none

def isFlush : Event → Bool
  | .flush .. => true
  | _ => false

end Event

/-! ### One round -/

/-- The progress once a write has been taken at a moment and its flush has been asked for. -/
def Progress.askFlush (sink : Sink) (p : Progress) (moment : Nat) : Progress :=
  { (p.atMoment moment).cancelIf (sink.cancelsAfter .write p.writes) with
    flushes := p.flushes + 1 }

/-- The progress once a chunk has been flushed as well. -/
def Progress.counting (sink : Sink) (p : Progress) (moment : Nat) (chunk : List UInt8) : Progress :=
  { (p.atMoment moment).cancelIf (sink.cancelsAfter .flush p.flushes) with
    bytes := p.bytes + chunk.length
    chunks := p.chunks + 1 }

/-- Where an event leaves a relay that does not go on after it. -/
def Progress.stopAt (p : Progress) : Event → Report
  | .read (.cancelled m) | .withheld m | .write _ _ (.cancelled m) | .flush _ (.cancelled m) =>
    (p.atMoment m).stop .cancelled
  | .read (.gone m) | .write _ _ (.refused m) | .flush _ (.refused m) =>
    (p.atMoment m).stop .consumerGone
  | _ => ⟨.waiting, p⟩

section Fields

variable (sink : Sink) (p : Progress) (moment : Nat) (chunk : List UInt8) (event : Event)

@[simp] theorem Progress.arrive_now : (p.arrive sink moment).now = moment := rfl
@[simp] theorem Progress.arrive_writes : (p.arrive sink moment).writes = p.writes := rfl
@[simp] theorem Progress.arrive_flushes : (p.arrive sink moment).flushes = p.flushes := rfl
@[simp] theorem Progress.arrive_taken : (p.arrive sink moment).taken = p.taken := rfl
@[simp] theorem Progress.askFlush_writes : (p.askFlush sink moment).writes = p.writes := rfl
@[simp] theorem Progress.askFlush_flushes : (p.askFlush sink moment).flushes = p.flushes + 1 := rfl
@[simp] theorem Progress.askFlush_taken : (p.askFlush sink moment).taken = p.taken := rfl
@[simp] theorem Progress.counting_writes : (p.counting sink moment chunk).writes = p.writes := rfl
@[simp] theorem Progress.counting_flushes : (p.counting sink moment chunk).flushes = p.flushes :=
  rfl
@[simp] theorem Progress.counting_taken : (p.counting sink moment chunk).taken = p.taken := rfl
@[simp] theorem Progress.atMoment_writes : (p.atMoment moment).writes = p.writes := rfl
@[simp] theorem Progress.atMoment_flushes : (p.atMoment moment).flushes = p.flushes := rfl
@[simp] theorem Progress.atMoment_taken : (p.atMoment moment).taken = p.taken := rfl
@[simp] theorem makeWrite_writes : (makeWrite sink p chunk).writes = p.writes + 1 := rfl
@[simp] theorem makeWrite_flushes : (makeWrite sink p chunk).flushes = p.flushes := rfl

theorem makeWrite_taken : (makeWrite sink p chunk).taken =
    if (sink.write (p.writes + 1)).takes then chunk :: p.taken else p.taken := rfl

/-- Stopping changes nothing but the moment. -/
theorem Progress.stopAt_progress :
    (p.stopAt event).progress = p.atMoment (p.stopAt event).progress.now := by
  unfold Progress.stopAt
  split <;> rfl

@[simp] theorem Progress.stopAt_writes : (p.stopAt event).progress.writes = p.writes := by
  rw [Progress.stopAt_progress, Progress.atMoment_writes]

@[simp] theorem Progress.stopAt_flushes : (p.stopAt event).progress.flushes = p.flushes := by
  rw [Progress.stopAt_progress, Progress.atMoment_flushes]

@[simp] theorem Progress.stopAt_taken : (p.stopAt event).progress.taken = p.taken := by
  rw [Progress.stopAt_progress, Progress.atMoment_taken]

/-- Only the end of the source closes a relay. -/
theorem Progress.stopAt_not_closed (bytes chunks : Nat) :
    (p.stopAt event).outcome ≠ .finished bytes chunks .sourceClosed := by
  unfold Progress.stopAt
  split <;> simp [Progress.stop]

end Fields

def writing (sink : Sink) (p : Progress) (chunk : List UInt8) : Delivery :=
  awaitReply (makeWrite sink p chunk) (sink.write (p.writes + 1))

def flushing (sink : Sink) (p : Progress) : Delivery := awaitReply p (sink.flush p.flushes)

def flushNext (sink : Sink) (chunk : List UInt8) (p : Progress) : Step :=
  deliver (p.askFlush sink p.now) (flushing sink (p.askFlush sink p.now)) fun q =>
    .onward (q.counting sink q.now chunk)

/-- The events of handing over one chunk. A flush is made only of a write that was taken. -/
def forwardEvents (sink : Sink) (p : Progress) (chunk : List UInt8) : List Event :=
  .write (p.writes + 1) chunk (writing sink p chunk) ::
    match writing sink p chunk with
    | .taken t =>
        [.flush (p.flushes + 1) (flushing sink ((makeWrite sink p chunk).askFlush sink t))]
    | _ => []

/-- A write that comes to be taken has been accepted by the consumer. -/
theorem takes_of_writing {sink : Sink} {p : Progress} {m t : Nat} {chunk : List UInt8}
    (written : writing sink (p.arrive sink m) chunk = .taken t) :
    (sink.write (p.writes + 1)).takes = true := by
  simp only [writing, awaitReply, Progress.arrive_writes] at written
  cases reply : sink.write (p.writes + 1) with
  | accepts => rfl
  | refuses wait | hangs taken =>
      rw [reply] at written
      dsimp only at written
      split at written <;> cases written

theorem forward_eq (sink : Sink) (p : Progress) (chunk : List UInt8) :
    forward sink p chunk =
      deliver (makeWrite sink p chunk) (writing sink p chunk) (flushNext sink chunk) := rfl

theorem forward_of_taken {sink : Sink} {p : Progress} {chunk : List UInt8} {t : Nat}
    (written : writing sink p chunk = .taken t) :
    forward sink p chunk =
      deliver ((makeWrite sink p chunk).askFlush sink t)
        (flushing sink ((makeWrite sink p chunk).askFlush sink t)) fun q =>
          .onward (q.counting sink q.now chunk) := by
  rw [forward_eq, written]
  rfl

theorem forwardEvents_of_taken {sink : Sink} {p : Progress} {chunk : List UInt8} {t : Nat}
    (written : writing sink p chunk = .taken t) :
    forwardEvents sink p chunk =
      [.write (p.writes + 1) chunk (.taken t),
        .flush (p.flushes + 1) (flushing sink ((makeWrite sink p chunk).askFlush sink t))] := by
  rw [forwardEvents, written]

/-! ### The end of the source -/

/-- What comes of the wait for the end of the source. -/
def awaitEnd (sink : Sink) (p : Progress) (wait : Nat) (ending : SourceEnd) : ReadEvent :=
  awaitRead sink p (if ending = .silent then none else some wait)

/-- How a relay comes out once the end of the source is there. -/
def Outcome.ofEnd (bytes chunks : Nat) : SourceEnd → Outcome
  | .failed text =>
    if bytes = 0 then .failed (.source text) else .finished bytes chunks .sourceFailed
  | _ => .finished bytes chunks .sourceClosed

/-- The report once the end of the source is there. -/
def Progress.conclude (p : Progress) (ending : SourceEnd) : Report :=
  ⟨.ofEnd p.bytes p.chunks ending, p⟩

theorem finish_eq (sink : Sink) (wait : Nat) (ending : SourceEnd) (p : Progress) :
    finish sink wait ending p =
      match awaitEnd sink p wait ending with
      | .ready m => (p.atMoment m).conclude ending
      | came => p.stopAt (.read came) := by
  rw [finish, awaitEnd]
  cases awaitRead sink p (if ending = .silent then none else some wait) with
  | cancelled m | gone m | never => rfl
  | ready m =>
      cases ending with
      | closed | silent => rfl
      | failed text =>
          by_cases nothing : p.bytes = 0 <;>
            simp [Progress.conclude, Outcome.ofEnd, Progress.stop, Progress.atMoment, nothing]

/-! ### The whole run -/

/-- The events of relaying some reads and then the end of the source. -/
def readEvents (sink : Sink) (wait : Nat) (ending : SourceEnd) : Progress → List Piece → List Event
  | p, [] => [.read (awaitEnd sink p wait ending)]
  | p, r :: reads =>
    .read (awaitRead sink p (some r.wait)) ::
      match awaitRead sink p (some r.wait) with
      | .ready m =>
        if (p.arrive sink m).isCancelled then [.withheld m]
        else forwardEvents sink (p.arrive sink m) r.bytes ++
          match forward sink (p.arrive sink m) r.bytes with
          | .stopped _ => []
          | .onward q => readEvents sink wait ending q reads
      | _ => []

def events (source : Source) (sink : Sink) (cancelledAt : Option Nat := none) (now : Nat := 0) :
    List Event :=
  match reads 0 source.pieces with
  | (rs, wait) =>
    readEvents sink (wait + source.wait) source.ending
      { now := now, cancelledAt := cancelledAt } rs

/-- How a relay can go on from some progress with some reads: the events and the report. -/
inductive Run (sink : Sink) (wait : Nat) (ending : SourceEnd) :
    Progress → List Piece → List Event → Report → Prop where
  /-- The source ends while the relay waits for its end. -/
  | ended {p : Progress} {m : Nat} (read : awaitEnd sink p wait ending = .ready m) :
      Run sink wait ending p [] [.read (.ready m)] ((p.atMoment m).conclude ending)
  /-- The relay stops while it waits for the end of the source. -/
  | parted {p : Progress} {came : ReadEvent} (read : awaitEnd sink p wait ending = came)
      (fails : (Event.read came).succeeds = false) :
      Run sink wait ending p [] [.read came] (p.stopAt (.read came))
  /-- The relay stops before it reads. -/
  | barred {p : Progress} {r : Piece} {reads : List Piece} {came : ReadEvent}
      (read : awaitRead sink p (some r.wait) = came)
      (fails : (Event.read came).succeeds = false) :
      Run sink wait ending p (r :: reads) [.read came] (p.stopAt (.read came))
  /-- What was read is not written, since the relay has been cancelled meanwhile. -/
  | withheld {p : Progress} {r : Piece} {reads : List Piece} {m : Nat}
      (read : awaitRead sink p (some r.wait) = .ready m)
      (found : (p.arrive sink m).isCancelled = true) :
      Run sink wait ending p (r :: reads) [.read (.ready m), .withheld m]
        ((p.arrive sink m).stopAt (.withheld m))
  /-- What was read is not taken. -/
  | unwritten {p : Progress} {r : Piece} {reads : List Piece} {m : Nat} {came : Delivery}
      (read : awaitRead sink p (some r.wait) = .ready m)
      (free : (p.arrive sink m).isCancelled = false)
      (written : writing sink (p.arrive sink m) r.bytes = came)
      (fails : (Event.write (p.writes + 1) r.bytes came).succeeds = false) :
      Run sink wait ending p (r :: reads)
        [.read (.ready m), .write (p.writes + 1) r.bytes came]
        ((makeWrite sink (p.arrive sink m) r.bytes).stopAt (.write (p.writes + 1) r.bytes came))
  /-- What was taken is not flushed. -/
  | unflushed {p : Progress} {r : Piece} {reads : List Piece} {m t : Nat} {came : Delivery}
      (read : awaitRead sink p (some r.wait) = .ready m)
      (free : (p.arrive sink m).isCancelled = false)
      (written : writing sink (p.arrive sink m) r.bytes = .taken t)
      (flushed : flushing sink ((makeWrite sink (p.arrive sink m) r.bytes).askFlush sink t) = came)
      (fails : (Event.flush (p.flushes + 1) came).succeeds = false) :
      Run sink wait ending p (r :: reads)
        [.read (.ready m), .write (p.writes + 1) r.bytes (.taken t), .flush (p.flushes + 1) came]
        (((makeWrite sink (p.arrive sink m) r.bytes).askFlush sink t).stopAt
          (.flush (p.flushes + 1) came))
  /-- What was read is taken and flushed, and the relay goes on. -/
  | round {p : Progress} {r : Piece} {reads : List Piece} {m t u : Nat} {events : List Event}
      {report : Report}
      (read : awaitRead sink p (some r.wait) = .ready m)
      (free : (p.arrive sink m).isCancelled = false)
      (written : writing sink (p.arrive sink m) r.bytes = .taken t)
      (flushed : flushing sink ((makeWrite sink (p.arrive sink m) r.bytes).askFlush sink t) =
        .taken u)
      (later : Run sink wait ending
        (((makeWrite sink (p.arrive sink m) r.bytes).askFlush sink t).counting sink u r.bytes) reads
        events report) :
      Run sink wait ending p (r :: reads)
        (.read (.ready m) :: .write (p.writes + 1) r.bytes (.taken t) ::
          .flush (p.flushes + 1) (.taken u) :: events) report

section Ready

variable {sink : Sink} {wait : Nat} {ending : SourceEnd} {p : Progress} {r : Piece}
variable {reads : List Piece} {m : Nat}

theorem relayReads_of_ready (read : awaitRead sink p (some r.wait) = .ready m)
    (free : (p.arrive sink m).isCancelled = false) :
    relayReads sink wait ending p (r :: reads) =
      match forward sink (p.arrive sink m) r.bytes with
      | .stopped report => report
      | .onward q => relayReads sink wait ending q reads := by
  cases handed : forward sink (p.arrive sink m) r.bytes with
  | stopped report => simp [relayReads, read, free, handed]
  | onward q => simp [relayReads, read, free, handed]

theorem relayReads_of_found (read : awaitRead sink p (some r.wait) = .ready m)
    (found : (p.arrive sink m).isCancelled = true) :
    relayReads sink wait ending p (r :: reads) = (p.arrive sink m).stopAt (.withheld m) := by
  rw [relayReads, read]
  exact if_pos found

theorem readEvents_of_ready (read : awaitRead sink p (some r.wait) = .ready m)
    (free : (p.arrive sink m).isCancelled = false) :
    readEvents sink wait ending p (r :: reads) =
      .read (.ready m) :: (forwardEvents sink (p.arrive sink m) r.bytes ++
        match forward sink (p.arrive sink m) r.bytes with
        | .stopped _ => []
        | .onward q => readEvents sink wait ending q reads) := by
  rw [readEvents, read]
  dsimp only
  rw [free, if_neg Bool.false_ne_true]

theorem readEvents_of_found (read : awaitRead sink p (some r.wait) = .ready m)
    (found : (p.arrive sink m).isCancelled = true) :
    readEvents sink wait ending p (r :: reads) = [.read (.ready m), .withheld m] := by
  rw [readEvents, read]
  dsimp only
  rw [if_pos found]

end Ready

/-- The events and the report of a relay are those of a run. -/
theorem run_spec (sink : Sink) (wait : Nat) (ending : SourceEnd) (p : Progress)
    (reads : List Piece) :
    Run sink wait ending p reads (readEvents sink wait ending p reads)
      (relayReads sink wait ending p reads) := by
  induction reads generalizing p with
  | nil =>
      rw [readEvents, relayReads, finish_eq]
      cases read : awaitEnd sink p wait ending with
      | ready m => exact .ended read
      | cancelled m | gone m | never => exact .parted read rfl
  | cons r reads ih =>
      cases read : awaitRead sink p (some r.wait) with
      | cancelled m | gone m | never =>
          rw [readEvents, relayReads, read]
          exact .barred read rfl
      | ready m =>
          cases free : (p.arrive sink m).isCancelled with
          | true =>
              rw [readEvents_of_found read free, relayReads_of_found read free]
              exact .withheld read free
          | false =>
              rw [readEvents_of_ready read free, relayReads_of_ready read free]
              cases written : writing sink (p.arrive sink m) r.bytes with
              | refused t | cancelled t | never =>
                  rw [forwardEvents, forward_eq, written]
                  exact .unwritten read free written rfl
              | taken t =>
                  rw [forwardEvents_of_taken written, forward_of_taken written]
                  cases flushed :
                    flushing sink ((makeWrite sink (p.arrive sink m) r.bytes).askFlush sink t) with
                  | refused u | cancelled u | never =>
                      exact .unflushed read free written flushed rfl
                  | taken u => exact .round read free written flushed (ih _)

/-- The report of a run counts its events: the consumer holds the chunks of the writes that it
takes, and the numbers of writes and flushes are those that were made. -/
theorem Run.report_counts_events {sink : Sink} {wait : Nat} {ending : SourceEnd} {p : Progress}
    {reads : List Piece} {events : List Event} {report : Report}
    (run : Run sink wait ending p reads events report) :
    report.progress.taken.reverse =
        p.taken.reverse ++ events.filterMap (Event.takenChunk? sink) ∧
      report.progress.writes = p.writes + (events.filterMap Event.chunk?).length ∧
      report.progress.flushes = p.flushes + events.countP Event.isFlush := by
  induction run with
  | ended read => simp [Progress.conclude, Event.takenChunk?, Event.chunk?, Event.isFlush]
  | parted read fails => simp [Event.takenChunk?, Event.chunk?, Event.isFlush]
  | barred read fails => simp [Event.takenChunk?, Event.chunk?, Event.isFlush]
  | withheld read found => simp [Event.takenChunk?, Event.chunk?, Event.isFlush]
  | @unwritten p r reads m came read free written fails =>
      by_cases takes : (sink.write (p.writes + 1)).takes <;>
        simp [makeWrite_taken, takes, List.filterMap_cons, Event.takenChunk?, Event.chunk?,
          Event.isFlush]
  | unflushed read free written flushed fails =>
      have takes := takes_of_writing written
      simp [makeWrite_taken, takes, List.filterMap_cons, Event.takenChunk?, Event.chunk?,
        Event.isFlush]
  | round read free written flushed later ih =>
      obtain ⟨taken, writes, flushes⟩ := ih
      have takes := takes_of_writing written
      refine ⟨?_, ?_, ?_⟩
      · simp [taken, makeWrite_taken, takes, List.filterMap_cons, Event.takenChunk?]
      · simp [writes, List.filterMap_cons, Event.chunk?]
        omega
      · simp [flushes, List.countP_cons, Event.isFlush]
        omega

end FleetBoard.Relay
