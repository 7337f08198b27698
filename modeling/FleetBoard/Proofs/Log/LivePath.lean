import FleetBoard.Log.Snapshot
import FleetBoard.Proofs.Log.Channels
import FleetBoard.Proofs.Log.Verbatim

/-!
# The live path and the snapshot agree

A log can be read to its end at once, or be passed on while it comes in. The two ways share the
decoder and nothing else: a snapshot folds it over the frames, the live path unfolds a source from
it, leaves out the frames that complete nothing, and has a relay cut what remains into reads. To a
consumer that keeps up both bring the same bytes, also when the log fails on the way.
-/

namespace FleetBoard

open LineDecoder (completed decode reader)

/-! ### Snapshots -/

namespace Snapshot

variable {ε : Type}

theorem collectFrom_ok (d : LineDecoder) (entries : List LogEntry) (frames : List Frame) :
    (collectFrom d entries (frames.map .ok) : Except ε (List LogEntry)) =
      .ok (entries.reverse ++ reader.run d frames) := by
  induction frames generalizing d entries with
  | nil => rfl
  | cons frame frames ih =>
      change collectFrom (d.push frame).2 ((d.push frame).1.reverse ++ entries) (frames.map .ok) = _
      rw [ih, Transducer.run_cons, List.reverse_append, List.reverse_reverse, List.append_assoc]
      rfl

/-- A log without a failure gives all its entries. -/
theorem collect_ok (frames : List Frame) :
    (collect (frames.map .ok) : Except ε (List LogEntry)) = .ok (decode frames) :=
  collectFrom_ok {} [] frames

theorem collectFrom_error (d : LineDecoder) (entries : List LogEntry) (frames : List Frame) (e : ε)
    (after : List (Except ε Frame)) :
    collectFrom d entries (frames.map .ok ++ .error e :: after) = .error e := by
  induction frames generalizing d entries with
  | nil => rfl
  | cons frame frames ih => exact ih (d.push frame).2 ((d.push frame).1.reverse ++ entries)

/-- A log gives its first failure, whatever came before and would come after. -/
theorem collect_error (frames : List Frame) (e : ε) (after : List (Except ε Frame)) :
    collect (frames.map .ok ++ .error e :: after) = .error e :=
  collectFrom_error {} [] frames e after

end Snapshot

/-! ### The source of a live log -/

namespace Ndjson

def arriving (frames : List (Nat × Frame)) : List (Nat × Except String Frame) :=
  frames.map fun f => (f.1, .ok f.2)

@[simp] theorem arriving_cons (f : Nat × Frame) (frames : List (Nat × Frame)) :
    arriving (f :: frames) = (f.1, .ok f.2) :: arriving frames := rfl

theorem map_arriving (frames : List (Nat × Frame)) :
    (arriving frames).map (·.2) = (frames.map (·.2)).map .ok := by
  rw [arriving, List.map_map, List.map_map]
  rfl

/-- Frames that come, then a failure, and what would come after it. -/
def failing (frames : List (Nat × Frame)) (wait : Nat) (text : String)
    (after : List (Nat × Except String Frame)) : List (Nat × Except String Frame) :=
  arriving frames ++ (wait, .error text) :: after

@[simp] theorem failing_cons (f : Nat × Frame) (frames : List (Nat × Frame)) (wait : Nat)
    (text : String) (after : List (Nat × Except String Frame)) :
    failing (f :: frames) wait text after = (f.1, .ok f.2) :: failing frames wait text after := rfl

theorem encode_cons (entry : LogEntry) (entries : List LogEntry) :
    encode (entry :: entries) = Text.utf8 entry.toJson.render ++ 0x0a :: encode entries := by
  have lineEnd : Text.utf8 ['\n'] = [0x0a] := rfl
  change Text.utf8 ((entry.toJson.render ++ ['\n']) ++ text entries) = _
  rw [Text.utf8_append, Text.utf8_append, lineEnd, List.append_assoc]
  rfl

/-- No line is empty, so only no entries at all are no bytes. -/
theorem encode_eq_nil {entries : List LogEntry} : encode entries = [] ↔ entries = [] := by
  cases entries with
  | nil => simp
  | cons entry entries => simp [encode_cons]

theorem bytes_pieceOf (wait : Nat) (entries : List LogEntry) :
    Relay.joined (pieceOf wait entries) = encode entries := by
  cases entries with
  | nil => rfl
  | cons e entries => simp [pieceOf]

/-- A frame puts out its entries before everything that comes later, whether they make a piece or
there are none and the next piece is waited for longer. -/
theorem sourceFrom_push (d : LineDecoder) (delay wait : Nat) (last : SourceEnd) (frame : Frame)
    (rest : List (Nat × Except String Frame)) :
    ∃ onward, (sourceFrom d delay last ((wait, .ok frame) :: rest)).bytes =
        encode (d.push frame).1 ++ (sourceFrom (d.push frame).2 onward last rest).bytes ∧
      (sourceFrom d delay last ((wait, .ok frame) :: rest)).ending =
        (sourceFrom (d.push frame).2 onward last rest).ending := by
  cases made : (d.push frame).1 with
  | nil =>
      refine ⟨delay + wait, ?_, ?_⟩ <;> simp [sourceFrom, made]
  | cons entry entries =>
      refine ⟨0, ?_, ?_⟩ <;> simp [sourceFrom, made]

/-- A live log without a failure offers all its entries, those of the tails included, and closes. -/
theorem sourceFrom_arriving (d : LineDecoder) (delay : Nat) (frames : List (Nat × Frame)) :
    (sourceFrom d delay .closed (arriving frames)).bytes =
        encode (reader.run d (frames.map (·.2))) ∧
      (sourceFrom d delay .closed (arriving frames)).ending = .closed := by
  induction frames generalizing d delay with
  | nil => exact ⟨bytes_pieceOf delay d.finish.1, rfl⟩
  | cons f frames ih =>
      obtain ⟨onward, bytes, ending⟩ := sourceFrom_push d delay f.1 .closed f.2 (arriving frames)
      obtain ⟨laterBytes, laterEnding⟩ := ih (d.push f.2).2 onward
      refine ⟨?_, ?_⟩
      · rw [arriving_cons, bytes, laterBytes, List.map_cons, Transducer.run_cons, encode_append]
        rfl
      · exact ending.trans laterEnding

/-- A live log that fails offers the entries that were complete before; what is begun is
discarded. -/
theorem sourceFrom_failing (d : LineDecoder) (delay : Nat) (last : SourceEnd)
    (frames : List (Nat × Frame)) (wait : Nat) (text : String)
    (after : List (Nat × Except String Frame)) :
    (sourceFrom d delay last (failing frames wait text after)).bytes =
        encode (reader.feed d (frames.map (·.2))).1 ∧
      (sourceFrom d delay last (failing frames wait text after)).ending = .failed text := by
  induction frames generalizing d delay with
  | nil => exact ⟨rfl, rfl⟩
  | cons f frames ih =>
      obtain ⟨onward, bytes, ending⟩ :=
        sourceFrom_push d delay f.1 last f.2 (failing frames wait text after)
      obtain ⟨laterBytes, laterEnding⟩ := ih (d.push f.2).2 onward
      refine ⟨?_, ?_⟩
      · rw [failing_cons, bytes, laterBytes, List.map_cons, Transducer.feed_cons, encode_append]
        rfl
      · exact ending.trans laterEnding

/-- What would come after a failure has no part in the source. -/
theorem sourceFrom_ignores_after (d : LineDecoder) (delay : Nat) (last last' : SourceEnd)
    (frames : List (Nat × Frame)) (wait : Nat) (text : String)
    (after after' : List (Nat × Except String Frame)) :
    sourceFrom d delay last (failing frames wait text after) =
      sourceFrom d delay last' (failing frames wait text after') := by
  induction frames generalizing d delay with
  | nil => rfl
  | cons f frames ih =>
      rw [failing_cons, failing_cons]
      simp only [sourceFrom, ih]

end Ndjson

/-! ### Consumers that keep up -/

/-- A consumer that accepts every write and flush, after whatever wait, is never gone and never
cancels the relay. -/
structure Relay.Sink.Steady (sink : Relay.Sink) : Prop where
  write_accepts : ∀ n, ∃ wait, sink.write n = .accepts wait
  flush_accepts : ∀ n, ∃ wait, sink.flush n = .accepts wait
  never_cancels : ∀ n, sink.cancelsOn n = false ∧ ∀ ask, sink.cancelsAfter ask n = false
  never_leaves : sink.goneAfter = none ∧ sink.goneAt = none

namespace Relay

/-- The consumer that takes everything at once. -/
theorem Sink.steady_default : ({} : Sink).Steady :=
  ⟨fun _ => ⟨0, rfl⟩, fun _ => ⟨0, rfl⟩, fun _ => ⟨rfl, fun _ => rfl⟩, rfl, rfl⟩

section Steady

variable {sink : Sink} {p : Progress}

theorem awaitRead_of_steady (steady : sink.Steady) (uncancelled : p.cancelledAt = none)
    (wait : Nat) : awaitRead sink p (some wait) = .ready (p.now + wait) := by
  have running : p.isCancelled = false := by
    rw [Progress.isCancelled, uncancelled]
    rfl
  have there : p.isGone sink = false := by
    rw [Progress.isGone, steady.never_leaves.1, steady.never_leaves.2]
    rfl
  simp [awaitRead, running, there, uncancelled, steady.never_leaves.2, noLater]

theorem awaitReply_of_accepts (uncancelled : p.cancelledAt = none) (wait : Nat) :
    awaitReply p (.accepts wait) = .taken (p.now + wait) := by
  simp [awaitReply, uncancelled, passed]

theorem arrive_cancelledAt (steady : sink.Steady) (m : Nat) :
    (p.arrive sink m).cancelledAt = p.cancelledAt := by
  simp [Progress.arrive, Progress.cancelIf, Progress.atMoment, steady.never_cancels]

theorem makeWrite_cancelledAt (steady : sink.Steady) (chunk : List UInt8) :
    (makeWrite sink p chunk).cancelledAt = p.cancelledAt := by
  simp [makeWrite, Progress.cancelIf, steady.never_cancels]

theorem askFlush_cancelledAt (steady : sink.Steady) (m : Nat) :
    (p.askFlush sink m).cancelledAt = p.cancelledAt := by
  simp [Progress.askFlush, Progress.cancelIf, Progress.atMoment, steady.never_cancels]

theorem counting_cancelledAt (steady : sink.Steady) (m : Nat) (chunk : List UInt8) :
    (p.counting sink m chunk).cancelledAt = p.cancelledAt := by
  simp [Progress.counting, Progress.cancelIf, Progress.atMoment, steady.never_cancels]

theorem writing_of_steady (steady : sink.Steady) (uncancelled : p.cancelledAt = none)
    (chunk : List UInt8) : ∃ t, writing sink p chunk = .taken t := by
  obtain ⟨wait, accepted⟩ := steady.write_accepts (p.writes + 1)
  have still := (makeWrite_cancelledAt steady chunk).trans uncancelled
  refine ⟨p.now + wait, ?_⟩
  rw [writing, accepted, awaitReply_of_accepts still]
  rfl

theorem flushing_of_steady (steady : sink.Steady) (uncancelled : p.cancelledAt = none) :
    ∃ t, flushing sink p = .taken t := by
  obtain ⟨wait, accepted⟩ := steady.flush_accepts p.flushes
  refine ⟨p.now + wait, ?_⟩
  rw [flushing, accepted, awaitReply_of_accepts uncancelled]

/-- Nothing stops the relay to a consumer that keeps up but the end of the source, so everything is
passed on and the report is that of the end. -/
theorem Run.of_steady {wait : Nat} {ending : SourceEnd} {reads : List Piece}
    {events : List Event} {report : Report} (steady : sink.Steady)
    (run : Run sink wait ending p reads events report) (uncancelled : p.cancelledAt = none)
    (answers : ending ≠ .silent) :
    report.outcome =
        .ofEnd (p.bytes + (joined reads).length) (p.chunks + reads.length) ending ∧
      report.progress.taken.reverse = p.taken.reverse ++ reads.map (·.bytes) := by
  induction run with
  | ended read => exact ⟨rfl, by simp [Progress.conclude]⟩
  | parted read fails =>
      rw [awaitEnd, if_neg answers, awaitRead_of_steady steady uncancelled] at read
      subst read
      exact absurd fails (by simp [Event.succeeds])
  | barred read fails =>
      rw [awaitRead_of_steady steady uncancelled] at read
      subst read
      exact absurd fails (by simp [Event.succeeds])
  | @withheld p r reads m read found =>
      rw [Progress.isCancelled, arrive_cancelledAt steady, uncancelled] at found
      cases found
  | @unwritten p r reads m came read free written fails =>
      have still := (arrive_cancelledAt (p := p) steady m).trans uncancelled
      obtain ⟨t, accepted⟩ := writing_of_steady steady still r.bytes
      rw [← written, accepted] at fails
      exact absurd fails (by simp [Event.succeeds])
  | @unflushed p r reads m t came read free written flushed fails =>
      have still : ((makeWrite sink (p.arrive sink m) r.bytes).askFlush sink t).cancelledAt =
          none := by
        rw [askFlush_cancelledAt steady, makeWrite_cancelledAt steady, arrive_cancelledAt steady,
          uncancelled]
      obtain ⟨u, accepted⟩ := flushing_of_steady steady still
      rw [← flushed, accepted] at fails
      exact absurd fails (by simp [Event.succeeds])
  | @round p r reads m t u events report read free written flushed later ih =>
      have still : (((makeWrite sink (p.arrive sink m) r.bytes).askFlush sink t).counting sink u
          r.bytes).cancelledAt = none := by
        rw [counting_cancelledAt steady, askFlush_cancelledAt steady, makeWrite_cancelledAt steady,
          arrive_cancelledAt steady, uncancelled]
      obtain ⟨outcome, taken⟩ := ih still
      have takes := takes_of_writing written
      refine ⟨?_, ?_⟩
      · have counted : report.outcome = .ofEnd (p.bytes + r.bytes.length + (joined reads).length)
            (p.chunks + 1 + reads.length) ending := outcome
        rw [counted, joined_cons, List.length_append, List.length_cons]
        congr 1 <;> omega
      · simp [taken, makeWrite_taken, takes]

end Steady

/-- The relay of a source that ends, to a consumer that keeps up. -/
theorem run_of_steady {sink : Sink} (steady : sink.Steady) (source : Source) (now : Nat)
    (answers : source.ending ≠ .silent) :
    (run source sink none now).outcome =
        .ofEnd source.bytes.length (reads 0 source.pieces).1.length source.ending ∧
      (run source sink none now).progress.taken.reverse.flatten = source.bytes := by
  obtain ⟨outcome, taken⟩ := (run_events source sink none now).of_steady steady rfl answers
  have whole : joined (reads 0 source.pieces).1 = source.bytes := joined_reads 0 source.pieces
  refine ⟨?_, ?_⟩
  · rw [outcome, whole, Nat.zero_add, Nat.zero_add]
  · rw [taken, List.reverse_nil, List.nil_append, flatten_reads]

/-- What a relay has made of a log that fails behind some frames. -/
structure Breaks (report : Report) (frames : List Frame) (text : String) : Prop where
  passedOn : report.progress.taken.reverse.flatten = Ndjson.encode (completed frames)
  failed : completed frames = [] → report.outcome = .failed (.source text)
  ended : completed frames ≠ [] → ∃ chunks,
    report.outcome = .finished (Ndjson.encode (completed frames)).length chunks .sourceFailed

/-- What a consumer gets of frames that are passed on to it, by what a snapshot of them is. -/
structure Agrees (sink : Sink) (now : Nat) (frames : List (Nat × Frame)) : Prop where
  whole : ∃ entries chunks,
    let report := run (Ndjson.source .closed (Ndjson.arriving frames)) sink none now
    Snapshot.collect ((Ndjson.arriving frames).map (·.2)) = .ok entries ∧
      report.outcome = .finished (Ndjson.encode entries).length chunks .sourceClosed ∧
      report.progress.taken.reverse.flatten = Ndjson.encode entries
  broken : ∀ last wait text after,
    Breaks (run (Ndjson.source last (Ndjson.failing frames wait text after)) sink none now)
      (frames.map (·.2)) text
  refused : ∀ wait text after,
    Snapshot.collect ((Ndjson.failing frames wait text after).map (·.2)) = .error text
  /-- What would come after the failure makes no difference. -/
  unread : ∀ last last' wait text after after',
    Ndjson.source last (Ndjson.failing frames wait text after) =
      Ndjson.source last' (Ndjson.failing frames wait text after')

/-- Whether a log is passed on or read at once, it is the same. Without a failure, a consumer that
keeps up gets byte for byte the entries of the snapshot. With one, the snapshot is the first
failure; the consumer gets the entries that were complete before it, and the relay fails if they are
none and ends there if there are some. What would come after the failure has no part in it. -/
theorem live_agrees_with_snapshot {sink : Sink} (steady : sink.Steady) (now : Nat)
    (frames : List (Nat × Frame)) : Agrees sink now frames where
  whole := by
    obtain ⟨bytes, ending⟩ := Ndjson.sourceFrom_arriving {} 0 frames
    let source := Ndjson.source .closed (Ndjson.arriving frames)
    have closes : source.ending = .closed := ending
    have offers : source.bytes = Ndjson.encode (decode (frames.map (·.2))) := bytes
    obtain ⟨outcome, taken⟩ := run_of_steady steady source now (by rw [closes]; exact nofun)
    refine ⟨decode (frames.map (·.2)), (reads 0 source.pieces).1.length, ?_, ?_, ?_⟩
    · rw [Ndjson.map_arriving, Snapshot.collect_ok]
    · rw [closes, offers] at outcome
      exact outcome
    · exact taken.trans offers
  broken last wait text after := by
    obtain ⟨bytes, ending⟩ := Ndjson.sourceFrom_failing {} 0 last frames wait text after
    let source := Ndjson.source last (Ndjson.failing frames wait text after)
    have breaks : source.ending = .failed text := ending
    have offers : source.bytes = Ndjson.encode (completed (frames.map (·.2))) := bytes
    obtain ⟨outcome, taken⟩ := run_of_steady steady source now (by rw [breaks]; exact nofun)
    rw [breaks, offers] at outcome
    refine { passedOn := taken.trans offers, failed := ?_, ended := ?_ }
    · intro nothing
      rw [nothing] at outcome
      exact outcome
    · intro something
      have filled : (Ndjson.encode (completed (frames.map (·.2)))).length ≠ 0 := by
        rw [Ne, List.length_eq_zero_iff, Ndjson.encode_eq_nil]
        exact something
      refine ⟨(reads 0 source.pieces).1.length, ?_⟩
      rw [Outcome.ofEnd, if_neg filled] at outcome
      exact outcome
  refused wait text after := by
    rw [Ndjson.failing, List.map_append, Ndjson.map_arriving, List.map_cons,
      Snapshot.collect_error]
  unread last last' wait text after after' :=
    Ndjson.sourceFrom_ignores_after {} 0 last last' frames wait text after after'

def lineAndHalf : List (Nat × Frame) := [(3, ⟨.stdout, [0x61, 0x0a, 0x62]⟩)]

/-- The half line is passed on when the log ends, and discarded when the log fails. -/
theorem live_agrees_with_snapshot_lineAndHalf :
    let line := LogEntry.classify .stdout "a"
    let half := LogEntry.classify .stdout "b"
    let whole := run (Ndjson.source .closed (Ndjson.arriving lineAndHalf)) {}
    let broken := run (Ndjson.source .closed (Ndjson.failing lineAndHalf 1 "reset" [])) {}
    let failed := run (Ndjson.source .closed (Ndjson.failing [] 1 "reset" [])) {}
    ({} : Sink).Steady ∧
      whole.progress.taken.reverse.flatten = Ndjson.encode [line, half] ∧
      (broken.progress.taken.reverse.flatten = Ndjson.encode [line] ∧
        ∃ chunks, broken.outcome =
          .finished (Ndjson.encode [line]).length chunks .sourceFailed) ∧
      failed.outcome = .failed (.source "reset") := by
  have agrees := live_agrees_with_snapshot Sink.steady_default 0 lineAndHalf
  have agreesAtOnce := live_agrees_with_snapshot Sink.steady_default 0 []
  have breaks := agrees.broken .closed 1 "reset" []
  obtain ⟨entries, chunks, collected, -, taken⟩ := agrees.whole
  have both : entries = [LogEntry.classify .stdout "a", LogEntry.classify .stdout "b"] :=
    (Except.ok.inj collected).symm
  subst both
  exact ⟨Sink.steady_default, taken, ⟨breaks.passedOn, breaks.ended (List.cons_ne_nil _ _)⟩,
    (agreesAtOnce.broken .closed 1 "reset" []).failed rfl⟩

end Relay

end FleetBoard
