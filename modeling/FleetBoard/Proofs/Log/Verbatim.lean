import FleetBoard.Proofs.Log.Reads
import FleetBoard.Proofs.Log.Turns
import Mathlib.Data.List.Infix

/-!
# A relay is verbatim, in order and complete

Whatever the source, the consumer and the moment of cancellation are, the chunks in the consumer's
hands are the bytes of the source up to some point. Each is within the size of one read, each
follows a chunk that has been taken and flushed, and a relay that stops because the source has
closed has passed on everything.
-/

namespace FleetBoard.Relay

section Runs

variable {sink : Sink} {wait : Nat} {ending : SourceEnd} {p : Progress} {reads : List Piece}
variable {events : List Event} {report : Report}

/-- The chunks that are written are the reads, in their order, up to some point. -/
theorem Run.written_prefix (run : Run sink wait ending p reads events report) :
    events.filterMap Event.chunk? <+: reads.map (·.bytes) := by
  induction run with
  | ended | parted | barred | withheld | unwritten | unflushed =>
      simp [List.filterMap_cons, Event.chunk?]
  | round read free written flushed later ih => simpa [List.filterMap_cons, Event.chunk?] using ih

/-- The chunks that are taken are the reads, in their order, up to some point: a chunk that is not
taken is the last one written. -/
theorem Run.taken_prefix (run : Run sink wait ending p reads events report) :
    events.filterMap (Event.takenChunk? sink) <+: reads.map (·.bytes) := by
  induction run with
  | ended | parted | barred | withheld => simp [List.filterMap_cons, Event.takenChunk?]
  | @unwritten p r reads m came read free written fails =>
      by_cases takes : (sink.write (p.writes + 1)).takes <;>
        simp [List.filterMap_cons, Event.takenChunk?, takes]
  | unflushed read free written flushed fails =>
      have takes := takes_of_writing written
      simp [List.filterMap_cons, Event.takenChunk?, takes]
  | round read free written flushed later ih =>
      have takes := takes_of_writing written
      simpa [List.filterMap_cons, Event.takenChunk?, takes] using ih

/-- A relay that is closed by its source has passed on every read. -/
theorem Run.taken_of_closed (run : Run sink wait ending p reads events report)
    {bytes chunks : Nat} (closed : report.outcome = .finished bytes chunks .sourceClosed) :
    events.filterMap (Event.takenChunk? sink) = reads.map (·.bytes) := by
  induction run with
  | ended | parted => simp [Event.takenChunk?]
  | barred | withheld | unwritten | unflushed =>
      exact absurd closed (Progress.stopAt_not_closed _ _ _ _)
  | round read free written flushed later ih =>
      have takes := takes_of_writing written
      simpa [List.filterMap_cons, Event.takenChunk?, takes] using ih closed

end Runs

/-- What goes before a write: its read alone for the first one, and for any other the write and the
flush of the chunk before, both taken, and then its read. -/
def Precedes (first : Nat) (before : List Event) (number : Nat) : Prop :=
  (number = first ∧ ∃ m, before = [.read (.ready m)]) ∨
    ∃ last earlier chunk t u m, number = last + 1 ∧
      before =
        earlier ++ [.write last chunk (.taken t), .flush last (.taken u), .read (.ready m)]

/-- One more round in front leaves the order as it is. -/
theorem Precedes.cons_round {first number m t u : Nat} {chunk : List UInt8} {before : List Event}
    (later : Precedes (first + 1) before number) :
    Precedes first
      (.read (.ready m) :: .write first chunk (.taken t) :: .flush first (.taken u) :: before)
      number := by
  rcases later with ⟨rfl, m', rfl⟩ | ⟨last, earlier, chunk', t', u', m', same, rfl⟩
  · exact .inr ⟨first, [.read (.ready m)], chunk, t, u, m', rfl, rfl⟩
  · exact .inr ⟨last, .read (.ready m) :: .write first chunk (.taken t) ::
      .flush first (.taken u) :: earlier, chunk', t', u', m', same, rfl⟩

/-- The order of a run. As many flushes as writes have been made when a round begins, so a write and
its flush have the same number; this is what carries the induction. -/
theorem Run.precedes {sink : Sink} {wait : Nat} {ending : SourceEnd} {p : Progress}
    {reads : List Piece} {events : List Event} {report : Report}
    (run : Run sink wait ending p reads events report) (even : p.flushes = p.writes)
    {before after : List Event} {number : Nat} {chunk : List UInt8} {came : Delivery}
    (made : events = before ++ .write number chunk came :: after) :
    Precedes (p.writes + 1) before number := by
  induction run generalizing before with
  | ended | parted | barred => rcases before with _ | ⟨e, before⟩ <;> simp at made
  | withheld => rcases before with _ | ⟨e, _ | ⟨e', before⟩⟩ <;> simp at made
  | unwritten =>
      rcases before with _ | ⟨e, _ | ⟨e', before⟩⟩ <;> simp at made
      obtain ⟨rfl, ⟨same, -, -⟩, -⟩ := made
      exact .inl ⟨same.symm, _, rfl⟩
  | unflushed =>
      rcases before with _ | ⟨e, _ | ⟨e', _ | ⟨e'', before⟩⟩⟩ <;> simp at made
      obtain ⟨rfl, ⟨same, -, -⟩, -⟩ := made
      exact .inl ⟨same.symm, _, rfl⟩
  | round read free written flushed later ih =>
      rcases before with _ | ⟨e, _ | ⟨e', _ | ⟨e'', before⟩⟩⟩ <;> simp at made
      · obtain ⟨rfl, ⟨same, -, -⟩, -⟩ := made
        exact .inl ⟨same.symm, _, rfl⟩
      · obtain ⟨rfl, rfl, rfl, rest⟩ := made
        rw [even]
        exact (ih (by simp [even]) rest).cons_round

/-- The events and the report of the relay of a source are those of a run over its reads. -/
theorem run_events (source : Source) (sink : Sink) (cancelledAt : Option Nat) (now : Nat) :
    Run sink ((reads 0 source.pieces).2 + source.wait) source.ending
      { now := now, cancelledAt := cancelledAt } (reads 0 source.pieces).1
      (events source sink cancelledAt now) (run source sink cancelledAt now) :=
  run_spec ..

theorem flatten_reads (source : Source) :
    ((reads 0 source.pieces).1.map (·.bytes)).flatten = source.bytes := by
  rw [← List.flatMap_def]
  exact joined_reads 0 source.pieces

/-- What a relay conveys of a source, by its report and the events that the report counts. -/
structure Conveys (source : Source) (sink : Sink) (happened : List Event) (report : Report) :
    Prop where
  taken : report.progress.taken.reverse = happened.filterMap (Event.takenChunk? sink)
  writes : report.progress.writes = (happened.filterMap Event.chunk?).length
  flushes : report.progress.flushes = happened.countP Event.isFlush
  /-- What the consumer has taken are the bytes of the source, up to some point and in their
  order. -/
  verbatim : report.progress.taken.reverse.flatten <+: source.bytes
  bounded : ∀ number chunk came, .write number chunk came ∈ happened →
    1 ≤ chunk.length ∧ chunk.length ≤ 32768
  /-- A chunk goes out after the chunk before has been taken and flushed. -/
  ordered : ∀ before number chunk came after,
    happened = before ++ .write number chunk came :: after → Precedes 1 before number
  /-- If the relay stops because the source has closed, the consumer has everything. -/
  complete : ∀ bytes chunks, report.outcome = .finished bytes chunks .sourceClosed →
    report.progress.taken.reverse.flatten = source.bytes

/-- Of every source, every consumer and every way to be cancelled: what is relayed are the bytes of
the source, unchanged and in order, in chunks within the size of one read. -/
theorem relayed_verbatim (source : Source) (sink : Sink) (cancelledAt : Option Nat) (now : Nat) :
    Conveys source sink (events source sink cancelledAt now) (run source sink cancelledAt now) := by
  have run := run_events source sink cancelledAt now
  obtain ⟨taken, writes, flushes⟩ := run.report_counts_events
  rw [List.reverse_nil, List.nil_append] at taken
  rw [Nat.zero_add] at writes flushes
  refine {
    taken := taken
    writes := writes
    flushes := flushes
    verbatim := ?_
    bounded := ?_
    ordered := fun _ _ _ _ _ made => run.precedes rfl made
    complete := ?_ }
  · rw [taken, ← flatten_reads]
    exact run.taken_prefix.flatten
  · intro number chunk came member
    have written : chunk ∈ (events source sink cancelledAt now).filterMap Event.chunk? :=
      List.mem_filterMap.mpr ⟨_, member, rfl⟩
    obtain ⟨r, inside, rfl⟩ := List.mem_map.mp (run.written_prefix.subset written)
    exact length_of_mem_reads inside
  · intro bytes chunks closed
    rw [taken, run.taken_of_closed closed, flatten_reads]

def twoPieces : Source := ⟨[⟨0, [0x61, 0x62]⟩, ⟨3, []⟩, ⟨4, [0x63]⟩], 5, .closed⟩

theorem reads_twoPieces :
    reads 0 twoPieces.pieces = ([⟨0, [0x61, 0x62]⟩, ⟨7, [0x63]⟩], 0) := by
  simp [twoPieces, reads, readsOfPiece, cut_of_ne_nil, readSize]

/-- A consumer that takes everything has all of them, and the second chunk goes out after the
first. -/
theorem relayed_verbatim_twoPieces :
    (run twoPieces {}).outcome = .finished 3 2 .sourceClosed ∧
      (run twoPieces {}).progress.taken.reverse.flatten = twoPieces.bytes ∧
      (.write 2 [0x63] (.taken 7) ∈ events twoPieces {} ∧ 1 ≤ [0x63].length ∧
        [0x63].length ≤ 32768) ∧
      Precedes 1 [.read (.ready 0), .write 1 [0x61, 0x62] (.taken 0), .flush 1 (.taken 0),
        .read (.ready 7)] 2 := by
  have conveys := relayed_verbatim twoPieces {} none 0
  have closed : (run twoPieces {}).outcome = .finished 3 2 .sourceClosed := by
    rw [run, reads_twoPieces]
    rfl
  have happened : events twoPieces {} = [.read (.ready 0), .write 1 [0x61, 0x62] (.taken 0),
      .flush 1 (.taken 0), .read (.ready 7)] ++ .write 2 [0x63] (.taken 7) ::
        [.flush 2 (.taken 7), .read (.ready 12)] := by
    rw [events, reads_twoPieces]
    rfl
  have member : .write 2 [0x63] (.taken 7) ∈ events twoPieces {} := by
    rw [happened]
    exact List.mem_append_right _ List.mem_cons_self
  exact ⟨closed, conveys.complete 3 2 closed, ⟨member, conveys.bounded _ _ _ member⟩,
    conveys.ordered _ _ _ _ _ happened⟩

end FleetBoard.Relay
