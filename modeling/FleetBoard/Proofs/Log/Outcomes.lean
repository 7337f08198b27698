import FleetBoard.Proofs.Log.Checks
import FleetBoard.Proofs.Log.Verbatim

/-!
# How a relay comes out

A relay goes on until it observes something that ends it: the token cancelled, the consumer gone, a
read that fails or the end of the source. That observation is its last event and decides how it
comes out; a failed read is an error only if nothing has been passed on. The report counts the
chunks that were written and flushed. What the consumer holds may be one chunk more, the last one,
which was taken and then interrupted or refused.
-/

namespace FleetBoard.Relay

/-! ### What ends a relay -/

namespace Event

/-- The token is found cancelled. -/
def findsCancelled : Event → Bool
  | .read (.cancelled _) | .withheld _ | .write _ _ (.cancelled _) | .flush _ (.cancelled _) => true
  | _ => false

/-- The consumer is found gone, or refuses what it is asked. -/
def findsGone : Event → Bool
  | .read (.gone _) | .write _ _ (.refused _) | .flush _ (.refused _) => true
  | _ => false

end Event

/-- A read comes, and this is what it brings. -/
def Comes (script : Script) (brought : Brought) (x : Standing × Event) : Prop :=
  (∃ m, x.2 = .read (.ready m)) ∧ script.brings x.1.writes = brought

/-- The relay goes on: a chunk has come, or a write or a flush has been taken. -/
def GoesOn (script : Script) (x : Standing × Event) : Prop :=
  x.2.succeeds = true ∧ ∀ m, x.2 = .read (.ready m) →
    ∃ chunk, script.brings x.1.writes = .bytes chunk

/-- The chunks that were written and then flushed. -/
def delivered : List Event → List (List UInt8)
  | [] => []
  | .write _ chunk (.taken _) :: .flush _ (.taken _) :: events => chunk :: delivered events
  | _ :: events => delivered events

def Outcome.ending? : Outcome → Option End
  | .finished _ _ ending => some ending
  | _ => none

/-- How a relay comes out that has passed on so much, and goes no further after an event. -/
def verdict (script : Script) (bytes chunks : Nat) : Standing × Event → Outcome
  | (s, .read (.ready _)) =>
    match script.brings s.writes with
    | .failed text =>
        if bytes = 0 then .failed (.source text) else .finished bytes chunks .sourceFailed
    | _ => .finished bytes chunks .sourceClosed
  | (_, event) =>
    if event.findsCancelled then .finished bytes chunks .cancelled
    else if event.findsGone then .finished bytes chunks .consumerGone
    else .waiting

section Runs

variable {sink : Sink} {script : Script} {s : Standing} {p : Progress} {reads : List Piece}
    {events : List Event}
variable {event : Event} {report : Report} {x : Standing × Event} {text : String}

theorem Comes.not_goesOn {brought : Brought} (comes : Comes script brought x)
    (other : ∀ chunk, brought ≠ .bytes chunk) :
    ¬ GoesOn script x := by
  obtain ⟨⟨m, came⟩, rfl⟩ := comes
  rintro ⟨-, brings⟩
  obtain ⟨chunk, bytes⟩ := brings m came
  exact other chunk bytes

theorem verdict_stopAt (script : Script) (s : Standing) (p : Progress)
    (fails : event.succeeds = false) :
    (p.stopAt event).outcome = verdict script p.bytes p.chunks (s, event) := by
  match event, fails with
  | .read (.cancelled _), _ | .read (.gone _), _ | .read .never, _ | .withheld _, _ => rfl
  | .write _ _ (.refused _), _ | .write _ _ (.cancelled _), _ | .write _ _ .never, _ => rfl
  | .flush _ (.refused _), _ | .flush _ (.cancelled _), _ | .flush _ .never, _ => rfl

theorem fails_of_findsCancelled (cancelled : event.findsCancelled = true) :
    event.succeeds = false := by
  match event, cancelled with
  | .read (.cancelled _), _ | .withheld _, _ | .write _ _ (.cancelled _), _
  | .flush _ (.cancelled _), _ =>
      rfl

theorem fails_of_findsGone (gone : event.findsGone = true) : event.succeeds = false := by
  match event, gone with
  | .read (.gone _), _ | .write _ _ (.refused _), _ | .flush _ (.refused _), _ => rfl

theorem not_goesOn_of_fails (fails : event.succeeds = false) : ¬ GoesOn script (s, event) := by
  rintro ⟨succeeds, -⟩
  cases fails.symm.trans succeeds

theorem goesOn_of_taken (succeeds : event.succeeds = true) (other : ∀ came, event ≠ .read came) :
    GoesOn script (s, event) :=
  ⟨succeeds, fun _ came => absurd came (other _)⟩

theorem goesOn_of_drop {r : Piece} {m : Nat} (rest : script.reads.drop p.writes = r :: reads) :
    GoesOn script (p.standing .read, .read (.ready m)) :=
  ⟨rfl, fun _ _ => ⟨r.bytes, Script.brings_of_drop rest⟩⟩

theorem Script.brings_of_end (rest : script.reads.drop p.writes = []) (chunk : List UInt8) :
    script.brings p.writes ≠ .bytes chunk := by
  rw [Script.brings, List.getElem?_eq_none (List.drop_eq_nil_iff.mp rest)]
  intro same
  cases ending : script.ending <;> rw [ending] at same <;> cases same

/-- The end of the source decides as the report says. -/
theorem conclude_outcome {m : Nat} (rest : script.reads.drop p.writes = []) :
    ((p.atMoment m).conclude script.ending).outcome =
      verdict script p.bytes p.chunks (p.standing .read, .read (.ready m)) := by
  have next : script.reads[p.writes]? = none := List.getElem?_eq_none (List.drop_eq_nil_iff.mp rest)
  show Outcome.ofEnd p.bytes p.chunks script.ending = match script.brings p.writes with
    | .failed text =>
        if p.bytes = 0 then .failed (.source text) else .finished p.bytes p.chunks .sourceFailed
    | _ => .finished p.bytes p.chunks .sourceClosed
  rw [Script.brings, next]
  cases script.ending <;> rfl

/-- Behind one read more there is one read less. -/
theorem drop_succ {r : Piece} {n : Nat} (rest : script.reads.drop n = r :: reads) :
    script.reads.drop (n + 1) = reads := by
  rw [← List.drop_drop, rest, List.drop_one, List.tail_cons]

/-- A run has one last event, and it decides. -/
theorem Run.settled (run : Run sink script.wait script.ending p reads events report)
    (rest : script.reads.drop p.writes = reads) :
    ∃ before last, story sink (p.standing .read) events = before ++ [last] ∧
      (∀ x ∈ before, GoesOn script x) ∧ ¬ GoesOn script last ∧
      report.outcome = verdict script (p.bytes + (delivered events).flatten.length)
        (p.chunks + (delivered events).length) last := by
  -- A round goes on three times and leaves the rest to the next; all else ends the run with its
  -- last event.
  induction run with
  | ended read =>
      refine ⟨[], _, rfl, List.forall_mem_nil _, ?_, conclude_outcome rest⟩
      rintro ⟨-, brings⟩
      obtain ⟨chunk, bytes⟩ := brings _ rfl
      exact Script.brings_of_end rest chunk bytes
  | parted read fails | barred read fails =>
      exact ⟨[], _, rfl, List.forall_mem_nil _, not_goesOn_of_fails fails,
        verdict_stopAt script _ _ fails⟩
  | withheld read found =>
      refine ⟨[_], _, rfl, ?_, not_goesOn_of_fails rfl, verdict_stopAt script _ _ rfl⟩
      exact List.forall_mem_singleton.mpr (goesOn_of_drop rest)
  | @unwritten p r reads m came read free written fails =>
      refine ⟨[_], _, rfl, ?_, not_goesOn_of_fails fails, ?_⟩
      · exact List.forall_mem_singleton.mpr (goesOn_of_drop rest)
      · have none : delivered [.read (.ready m), .write (p.writes + 1) r.bytes came] = [] := by
          simp [delivered]
        rw [none]
        exact verdict_stopAt script _ _ fails
  | @unflushed p r reads m t came read free written flushed fails =>
      refine ⟨[_, _], _, rfl, ?_, not_goesOn_of_fails fails, ?_⟩
      · simp only [List.forall_mem_cons]
        exact ⟨goesOn_of_drop rest, goesOn_of_taken rfl nofun, List.forall_mem_nil _⟩
      · have none : delivered [.read (.ready m), .write (p.writes + 1) r.bytes (.taken t),
            .flush (p.flushes + 1) came] = [] := by
          cases came with
          | taken u => cases fails
          | refused u | cancelled u | never => simp [delivered]
        rw [none]
        exact verdict_stopAt script _ _ fails
  | @round p r reads m t u events report read free written flushed later ih =>
      obtain ⟨before, last, whole, goes, stops, outcome⟩ := ih (drop_succ rest)
      have told := congrArg ([(p.standing .read, Event.read (.ready m)),
        ((p.arrive sink m).standing .write, .write (p.writes + 1) r.bytes (.taken t)),
        (((makeWrite sink (p.arrive sink m) r.bytes).askFlush sink t).standing .flush,
          .flush (p.flushes + 1) (.taken u))] ++ ·) whole
      refine ⟨_, last, told.trans (List.append_assoc ..).symm, ?_, stops, ?_⟩
      · simp only [List.cons_append, List.nil_append, List.forall_mem_cons]
        exact ⟨goesOn_of_drop rest, goesOn_of_taken rfl nofun, goesOn_of_taken rfl nofun, goes⟩
      · have more : delivered (.read (.ready m) :: .write (p.writes + 1) r.bytes (.taken t) ::
            .flush (p.flushes + 1) (.taken u) :: events) = r.bytes :: delivered events := by
          simp [delivered]
        have chunks : p.chunks + 1 + (delivered events).length =
            p.chunks + ((delivered events).length + 1) := by
          omega
        rw [more, List.flatten_cons, List.length_append, List.length_cons, ← Nat.add_assoc,
          ← chunks]
        exact outcome

/-- The relay was stopped from outside, or it never stops. -/
def Outcome.IsInterrupted (outcome : Outcome) : Prop :=
  outcome.ending? = some .cancelled ∨ outcome.ending? = some .consumerGone ∨ outcome = .waiting

theorem stopAt_isInterrupted (p : Progress) (fails : event.succeeds = false) :
    (p.stopAt event).outcome.IsInterrupted := by
  match event, fails with
  | .read (.cancelled _), _ | .withheld _, _ | .write _ _ (.cancelled _), _
  | .flush _ (.cancelled _), _ =>
      exact .inl rfl
  | .read (.gone _), _ | .write _ _ (.refused _), _ | .flush _ (.refused _), _ =>
      exact .inr (.inl rfl)
  | .read .never, _ | .write _ _ .never, _ | .flush _ .never, _ => exact .inr (.inr rfl)

/-- What the consumer takes is delivered, but for one last chunk of a relay that is stopped from
outside. -/
theorem Run.taken_eq (run : Run sink script.wait script.ending p reads events report) :
    events.filterMap (Event.takenChunk? sink) = delivered events ∨
      ∃ chunk, events.filterMap (Event.takenChunk? sink) = delivered events ++ [chunk] ∧
        report.outcome.IsInterrupted := by
  induction run with
  | ended | parted | barred | withheld => exact .inl (by simp [delivered, Event.takenChunk?])
  | @unwritten p r reads m came read free written fails =>
      by_cases takes : (sink.write (p.writes + 1)).takes = true
      · refine .inr ⟨r.bytes, ?_, stopAt_isInterrupted _ fails⟩
        simp [delivered, List.filterMap_cons, Event.takenChunk?, takes]
      · exact .inl (by simp [delivered, List.filterMap_cons, Event.takenChunk?, takes])
  | @unflushed p r reads m t came read free written flushed fails =>
      have takes := takes_of_writing written
      refine .inr ⟨r.bytes, ?_, stopAt_isInterrupted _ fails⟩
      cases came with
      | taken u => cases fails
      | refused u | cancelled u | never =>
          simp [delivered, List.filterMap_cons, Event.takenChunk?, takes]
  | @round p r reads m t u events report read free written flushed later ih =>
      have takes := takes_of_writing written
      obtain same | ⟨chunk, more, interrupted⟩ := ih
      · exact .inl (by simp [delivered, List.filterMap_cons, Event.takenChunk?, takes, same])
      · exact .inr ⟨chunk,
          by simp [delivered, List.filterMap_cons, Event.takenChunk?, takes, more], interrupted⟩

/-- A chunk that was delivered was written. -/
theorem delivered_sublist (events : List Event) :
    (delivered events).Sublist (events.filterMap Event.chunk?) := by
  induction events using delivered.induct with
  | case1 => exact .slnil
  | case2 number chunk t other u events ih =>
      rw [delivered]
      exact ih.cons_cons chunk
  | case3 event events other ih =>
      rw [delivered]
      · exact ih.trans ((List.sublist_cons_self event events).filterMap Event.chunk?)
      · exact other

/-- No chunk is empty, so nothing was delivered just if no bytes were. -/
theorem Run.delivered_eq_nil_iff (run : Run sink script.wait script.ending p reads events report)
    (filled : ∀ r ∈ reads, 1 ≤ r.bytes.length) :
    (delivered events).flatten.length = 0 ↔ delivered events = [] := by
  rw [List.length_eq_zero_iff, List.flatten_eq_nil_iff]
  constructor
  · intro empty
    apply List.eq_nil_iff_forall_not_mem.mpr
    intro chunk inside
    obtain ⟨r, read, rfl⟩ :=
      List.mem_map.mp (run.written_prefix.subset ((delivered_sublist events).subset inside))
    have long := filled r read
    rw [empty _ inside] at long
    cases long
  · intro none
    rw [none]
    exact List.forall_mem_nil _

/-! ### The verdict -/

theorem verdict_counts {bytes chunks b c : Nat} {ending : End}
    (finished : verdict script bytes chunks x = .finished b c ending) : b = bytes ∧ c = chunks := by
  obtain ⟨s, event⟩ := x
  unfold verdict at finished
  split at finished <;> split at finished
  · split at finished <;> cases finished
    exact ⟨rfl, rfl⟩
  · cases finished
    exact ⟨rfl, rfl⟩
  · cases finished
    exact ⟨rfl, rfl⟩
  · split at finished <;> cases finished
    exact ⟨rfl, rfl⟩

theorem verdict_spec (bytes chunks : Nat) (stops : ¬ GoesOn script x) :
    (∀ error, verdict script bytes chunks x = .failed error ↔
      ∃ text, error = .source text ∧ Comes script (.failed text) x ∧ bytes = 0) ∧
    ((verdict script bytes chunks x).ending? = some .sourceFailed ↔
      (∃ text, Comes script (.failed text) x) ∧ bytes ≠ 0) ∧
    ((verdict script bytes chunks x).ending? = some .sourceClosed ↔ Comes script .closed x) ∧
    ((verdict script bytes chunks x).ending? = some .cancelled ↔ x.2.findsCancelled = true) ∧
    ((verdict script bytes chunks x).ending? = some .consumerGone ↔ x.2.findsGone = true) := by
  obtain ⟨s, event⟩ := x
  cases event with
  | read came =>
      cases came with
      | ready m =>
          have comes {brought : Brought} : Comes script brought (s, .read (.ready m)) ↔
              script.brings s.writes = brought :=
            and_iff_right ⟨m, rfl⟩
          simp only [comes, verdict, Event.findsCancelled, Event.findsGone]
          cases brings : script.brings s.writes with
          | bytes chunk => exact (stops ⟨rfl, fun _ _ => ⟨chunk, brings⟩⟩).elim
          | closed => simp [Outcome.ending?]
          | failed text => by_cases nothing : bytes = 0 <;> simp [Outcome.ending?, nothing, eq_comm]
      | cancelled m | gone m | never =>
          simp [verdict, Outcome.ending?, Comes, Event.findsCancelled, Event.findsGone]
  | withheld m => simp [verdict, Outcome.ending?, Comes, Event.findsCancelled, Event.findsGone]
  | write number chunk came | flush number came =>
      cases came with
      | taken m => exact (stops (goesOn_of_taken rfl nofun)).elim
      | refused m | cancelled m | never =>
          simp [verdict, Outcome.ending?, Comes, Event.findsCancelled, Event.findsGone]

/-- What ends a relay is seen just if it is what its last event is. -/
theorem exists_iff_last {before : List (Standing × Event)} {last : Standing × Event}
    {P : Standing × Event → Prop} (goes : ∀ x ∈ before, GoesOn script x)
    (stops : ∀ x, P x → ¬ GoesOn script x) :
    (∃ x ∈ before ++ [last], P x) ↔ P last := by
  constructor
  · rintro ⟨x, inside, holds⟩
    cases List.mem_append.mp inside with
    | inl earlier => exact (stops x holds (goes x earlier)).elim
    | inr same => rwa [← List.mem_singleton.mp same]
  · intro holds
    exact ⟨last, List.mem_append_right before List.mem_cons_self, holds⟩

/-- Another event follows just those after which the relay goes on. -/
theorem goesOn_iff_followed {before b a : List (Standing × Event)} {last : Standing × Event}
    (goes : ∀ x ∈ before, GoesOn script x) (stops : ¬ GoesOn script last)
    (split : before ++ [last] = b ++ x :: a) : GoesOn script x ↔ a ≠ [] := by
  cases List.eq_nil_or_concat a with
  | inl none =>
      subst none
      obtain ⟨-, same⟩ := List.append_inj' split rfl
      cases same
      exact iff_of_false stops (fun some => some rfl)
  | inr more =>
      obtain ⟨front, y, rfl⟩ := more
      have inits : before = b ++ x :: front := by
        rw [List.concat_eq_append, ← List.cons_append, ← List.append_assoc] at split
        exact (List.append_inj' split rfl).1
      subst inits
      exact iff_of_true (goes x (List.mem_append_right b List.mem_cons_self)) (by simp)

end Runs

/-- How a relay comes out, by what it has seen: its events with the standings before them, the
chunks that it sent, and those that the consumer holds. -/
structure Settles (script : Script) (sink : Sink) (seen : List (Standing × Event))
    (sent held : List (List UInt8)) (outcome : Outcome) : Prop where
  /-- Each event is the one to be observed. -/
  observed : ∀ x ∈ seen, ∀ event, Observes script sink x.1 event ↔ event = x.2
  begun : seen ≠ []
  /-- The relay goes on after an event just if a chunk has come or has been taken, or a flush has
  been taken. So whatever else is observed is its last event. -/
  followed : ∀ before x after, seen = before ++ x :: after → (GoesOn script x ↔ after ≠ [])
  failed : ∀ error, outcome = .failed error ↔
    ∃ text, error = .source text ∧ (∃ x ∈ seen, Comes script (.failed text) x) ∧ sent = []
  sourceFailed : outcome.ending? = some .sourceFailed ↔
    (∃ text, ∃ x ∈ seen, Comes script (.failed text) x) ∧ sent ≠ []
  sourceClosed : outcome.ending? = some .sourceClosed ↔ ∃ x ∈ seen, Comes script .closed x
  cancelled : outcome.ending? = some .cancelled ↔ ∃ x ∈ seen, x.2.findsCancelled = true
  consumerGone : outcome.ending? = some .consumerGone ↔ ∃ x ∈ seen, x.2.findsGone = true
  counts : ∀ bytes chunks ending, outcome = .finished bytes chunks ending →
    bytes = sent.flatten.length ∧ chunks = sent.length
  /-- The consumer holds what was sent, and at most one chunk more if the relay was stopped from
  outside or never stops. -/
  held : held = sent ∨ ∃ chunk, held = sent ++ [chunk] ∧ outcome.IsInterrupted

/-- Of every source, every consumer and every way to be cancelled: each event of the relay is the
one to be observed, the last of them decides how the relay comes out, and the report counts what was
written and flushed. -/
theorem run_outcome (source : Source) (sink : Sink) (cancelledAt : Option Nat) (now : Nat) :
    Settles (scriptOf source) sink
      (story sink { now := now, cancelledAt := cancelledAt } (events source sink cancelledAt now))
      (delivered (events source sink cancelledAt now))
      (run source sink cancelledAt now).progress.taken.reverse
      (run source sink cancelledAt now).outcome := by
  have run : Run sink (scriptOf source).wait (scriptOf source).ending _ (scriptOf source).reads
      (events source sink cancelledAt now) (run source sink cancelledAt now) :=
    run_events source sink cancelledAt now
  obtain ⟨before, last, whole, goes, stops, outcome⟩ := run.settled rfl
  have seen_eq : story sink { now := now, cancelledAt := cancelledAt }
      (events source sink cancelledAt now) = before ++ [last] := whole
  rw [Nat.zero_add, Nat.zero_add] at outcome
  obtain ⟨failed, sourceFailed, closed, cancelled, gone⟩ :=
    verdict_spec (delivered (events source sink cancelledAt now)).flatten.length
      (delivered (events source sink cancelledAt now)).length stops
  have nothing := run.delivered_eq_nil_iff fun r read => (length_of_mem_reads read).1
  simp only [nothing] at failed
  rw [Ne, nothing] at sourceFailed
  rw [← outcome] at failed sourceFailed closed cancelled gone
  have fails : ∀ text, (∃ x ∈ before ++ [last], Comes (scriptOf source) (.failed text) x) ↔
      Comes (scriptOf source) (.failed text) last :=
    fun text => exists_iff_last goes fun x comes => comes.not_goesOn nofun
  refine {
    observed := ?_
    begun := ?_
    followed := ?_
    failed := ?_
    sourceFailed := ?_
    sourceClosed := ?_
    cancelled := ?_
    consumerGone := ?_
    counts := ?_
    held := ?_ }
  · intro x inside event
    have observed := run.observes rfl rfl x inside
    constructor
    · intro other
      exact other.unique observed
    · rintro rfl
      exact observed
  · rw [seen_eq]
    simp
  · intro b x a split
    exact goesOn_iff_followed goes stops (seen_eq.symm.trans split)
  · rw [seen_eq]
    simpa only [fails] using failed
  · rw [seen_eq]
    simpa only [fails] using sourceFailed
  · rw [closed, seen_eq]
    exact (exists_iff_last goes fun x comes => comes.not_goesOn nofun).symm
  · rw [cancelled, seen_eq]
    exact (exists_iff_last goes fun x found =>
      not_goesOn_of_fails (fails_of_findsCancelled found)).symm
  · rw [gone, seen_eq]
    exact (exists_iff_last goes fun x found => not_goesOn_of_fails (fails_of_findsGone found)).symm
  · intro bytes chunks ending finished
    exact verdict_counts (outcome.symm.trans finished)
  · have counted := run.report_counts_events.1
    rw [List.reverse_nil, List.nil_append] at counted
    rw [counted]
    exact run.taken_eq

def cutShort : Source := ⟨[⟨0, [0x61, 0x62]⟩, ⟨4, [0x63]⟩], 5, .failed "reset"⟩

/-- Someone cancels the relay when the second read comes. -/
def cancelsMeanwhile : Sink := { cancelsAfter := fun ask n => ask = .read && n = 2 }

theorem reads_cutShort : reads 0 cutShort.pieces = ([⟨0, [0x61, 0x62]⟩, ⟨4, [0x63]⟩], 0) := by
  simp [cutShort, reads, readsOfPiece, cut_of_ne_nil, readSize]

theorem events_cutShort :
    events cutShort cancelsMeanwhile =
      [.read (.ready 0), .write 1 [0x61, 0x62] (.taken 0), .flush 1 (.taken 0),
        .read (.ready 4), .withheld 4] := by
  rw [events, reads_cutShort]
  rfl

/-- The second chunk has come when the token is found cancelled, and is not written. -/
theorem run_outcome_cutShort :
    let seen := story cancelsMeanwhile {} (events cutShort cancelsMeanwhile)
    let last : Standing × Event := (⟨4, some 4, 1, .write⟩, .withheld 4)
    (run cutShort cancelsMeanwhile).outcome = .finished 2 1 .cancelled ∧
      (last ∈ seen ∧ Observes (scriptOf cutShort) cancelsMeanwhile last.1 last.2 ∧
        ¬ GoesOn (scriptOf cutShort) last) ∧
      (2 = [[0x61, 0x62]].flatten.length ∧ 1 = [[0x61, 0x62]].length) := by
  intro seen last
  have settles := run_outcome cutShort cancelsMeanwhile none 0
  have outcome : (run cutShort cancelsMeanwhile).outcome = .finished 2 1 .cancelled := by
    rw [run, reads_cutShort]
    rfl
  have sent : delivered (events cutShort cancelsMeanwhile) = [[0x61, 0x62]] := by
    rw [events_cutShort]
    rfl
  have told : ∃ before, seen = before ++ [last] := by
    refine ⟨story cancelsMeanwhile {} ((events cutShort cancelsMeanwhile).take 4), ?_⟩
    show story cancelsMeanwhile {} (events cutShort cancelsMeanwhile) = _
    rw [events_cutShort]
    rfl
  obtain ⟨before, told⟩ := told
  have inside : last ∈ seen := by
    rw [told]
    exact List.mem_append_right before List.mem_cons_self
  have counts := settles.counts 2 1 .cancelled outcome
  rw [sent] at counts
  refine ⟨outcome, ⟨inside, (settles.observed _ inside _).mpr rfl, ?_⟩, counts⟩
  intro goes
  exact (settles.followed before _ [] told).mp goes rfl

end FleetBoard.Relay
