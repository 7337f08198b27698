import FleetBoard.Proofs.Call.Guarded
import FleetBoard.Proofs.Engine.Calls
import FleetBoard.Proofs.Log.LivePath
import FleetBoard.Proofs.Log.Overriding

/-!
# The part of a log that is read

Of a log that is held in memory those frames are read whose channel is selected, and of these the
last ones, as many as the tail says (`Picks`). They are all there as soon as the log is open: a
reader may pause as it likes and gets them one after the other, and after them whatever the engine
has for those who stay (`Offers`, `OffersThen`).
-/

namespace FleetBoard

/-! ### Selected frames -/

namespace LogOptions

variable {o : LogOptions} {frames picked : List Frame}

def shown (o : LogOptions) (frames : List Frame) : List Frame :=
  frames.filter fun f => o.shows f.channel

/-- The last frames of the selected channels: as many as the tail says, if it is a number and there
are so many, and else all of them. -/
structure Picks (o : LogOptions) (frames picked : List Frame) : Prop where
  last : picked <:+ o.shown frames
  counted : ∀ n < UInt64.size, Decimal.Numeral o.tail.toList n →
    picked.length = min n (o.shown frames).length
  whole : (∀ n < UInt64.size, ¬ Decimal.Numeral o.tail.toList n) →
    picked.length = (o.shown frames).length

theorem tailLines_eq_none_iff :
    o.tailLines = none ↔ ∀ n < UInt64.size, ¬ Decimal.Numeral o.tail.toList n := by
  rw [Option.eq_none_iff_forall_ne_some]
  simp only [ne_eq, tailLines_eq_some_iff, not_and]
  exact forall_congr' fun n => forall_comm

theorem picks_select (o : LogOptions) (frames : List Frame) : Picks o frames (o.select frames) := by
  rw [select]
  cases lines : o.tailLines with
  | none =>
      refine ⟨List.suffix_refl _, ?_, fun _ => rfl⟩
      intro n bound number
      exact absurd number (tailLines_eq_none_iff.mp lines n bound)
  | some n =>
      have number := tailLines_eq_some_iff.mp lines
      refine ⟨List.drop_suffix _ _, ?_, ?_⟩
      · intro m bound same
        have equal : some m = some n := (tailLines_eq_some_iff.mpr ⟨same, bound⟩).symm.trans lines
        obtain rfl := Option.some.inj equal
        dsimp only
        rw [List.length_drop, shown]
        omega
      · intro none
        exact absurd number.1 (none n number.2)

/-- A tail that is not smaller leaves nothing out that was picked before. -/
theorem Picks.suffix_of_larger {tail : String} {more : List Frame} (picks : Picks o frames picked)
    (others : Picks { o with tail := tail } frames more)
    (larger : ∀ n < UInt64.size, Decimal.Numeral tail.toList n →
      ∃ m ≤ n, Decimal.Numeral o.tail.toList m) :
    picked <:+ more := by
  have short : picked.length ≤ more.length := by
    by_cases number : ∃ n < UInt64.size, Decimal.Numeral tail.toList n
    · obtain ⟨n, bound, number⟩ := number
      obtain ⟨m, smaller, fewer⟩ := larger n bound number
      rw [picks.counted m (Nat.lt_of_le_of_lt smaller bound) fewer, others.counted n bound number]
      exact min_le_min_right _ smaller
    · have all : more.length = (o.shown frames).length :=
        others.whole fun n bound numeral => number ⟨n, bound, numeral⟩
      rw [all]
      exact picks.last.length_le
  exact List.suffix_of_suffix_length_le picks.last others.last short

end LogOptions

/-! ### Frames that are there -/

def readAt (moment : Nat) (frames : List Frame) : List (Timed (Except EngineError Frame)) :=
  frames.map fun f => ⟨moment, .ok f⟩

namespace LogFeed

variable {life : Lifetime} {feed : LogFeed} {frames : List Frame}

/-- Whoever goes on reading while the call lives gets the next of some frames, as many as are asked
for. -/
def Offers (life : Lifetime) (feed : LogFeed) (frames : List Frame) : Prop :=
  ∀ read limit m, read + limit ≤ frames.length → life.isEnded m = false →
    feed.readGuarded life limit read m = ⟨readAt m ((frames.drop read).take limit), m, .more⟩

/-- Whoever asks for more than there is gets those that are left, and then what comes after them. -/
def OffersThen (life : Lifetime) (feed : LogFeed) (frames : List Frame)
    (after : Nat → Reading (Except EngineError Frame)) : Prop :=
  ∀ read limit m, read ≤ frames.length → frames.length < read + limit → life.isEnded m = false →
    feed.readGuarded life limit read m = (after m).prepend (readAt m (frames.drop read))

/-- The first answers of a feed are these frames, without a wait. -/
def BeginsWith (feed : LogFeed) (frames : List Frame) : Prop :=
  ∀ n f, frames[n]? = some f → feed.pull n = .item 0 (.ok f)

/-- As long as frames are left they are read, and then the reading goes on. -/
theorem BeginsWith.readGuarded_add (begins : BeginsWith feed frames) {m : Nat}
    (lives : life.isEnded m = false) (more : Nat) {read limit : Nat}
    (enough : read + limit ≤ frames.length) :
    feed.readGuarded life (limit + more) read m =
      (feed.readGuarded life more (read + limit) m).prepend
      (readAt m ((frames.drop read).take limit)) := by
  induction limit generalizing read with
  | zero =>
      rw [Nat.zero_add]
      rfl
  | succ limit ih =>
      have inside : read < frames.length := by omega
      have pulled := begins read frames[read] (List.getElem?_eq_getElem inside)
      rw [Nat.succ_add, Feed.readGuarded_item pulled lives, Nat.add_zero, ih (by omega),
        Nat.succ_add_eq_add_succ, List.drop_eq_getElem_cons inside, List.take_succ_cons]
      rfl

theorem BeginsWith.offers (begins : BeginsWith feed frames) : Offers life feed frames := by
  intro read limit m enough lives
  have whole := begins.readGuarded_add lives 0 enough
  rw [Nat.add_zero] at whole
  rw [whole, Feed.readGuarded, Reading.prepend, List.append_nil]

/-- What comes after the frames is what the first request behind them gets. -/
theorem BeginsWith.offersThen (begins : BeginsWith feed frames)
    {after : Nat → Reading (Except EngineError Frame)}
    (behind : ∀ more m, life.isEnded m = false →
      feed.readGuarded life (more + 1) frames.length m = after m) :
    OffersThen life feed frames after := by
  intro read limit m inside beyond lives
  obtain ⟨more, rfl⟩ : ∃ more, limit = frames.length - read + (more + 1) :=
    ⟨read + limit - frames.length - 1, by omega⟩
  have last : read + (frames.length - read) = frames.length := by omega
  rw [begins.readGuarded_add lives _ (Nat.le_of_eq last), last, behind more m lives,
    ← List.length_drop, List.take_length]

end LogFeed

namespace MemoryEngine

open LogFeed

variable {e : MemoryEngine} {frames : List Frame} {life : Lifetime}

/-! ### Logs in memory -/

theorem beginsWith_logFeed (e : MemoryEngine) (frames : List Frame) (follow : Bool) :
    BeginsWith (e.logFeed frames follow) frames := by
  intro n f there
  have recorded : (frames.map fun f => ((0, .ok f) : Nat × Except EngineError Frame))[n]? =
      some (0, .ok f) := by
    rw [List.getElem?_map, there]
    rfl
  rw [logFeed.eq_def]
  split
  · simp only [Feed.ofList, recorded]
  · simp only [Feed.ofList, recorded]
  · simp only [there]

/-- Behind the frames of a log that gets no lines of its own stands what was put there. -/
theorem pull_behind {follow : Bool} {last : Pull (Except EngineError Frame)}
    (plain : e.logFeed frames follow = Feed.ofList (frames.map fun f => (0, .ok f)) last) :
    (e.logFeed frames follow).pull frames.length = last := by
  have nothing : (frames.map fun f =>
      ((0, .ok f) : Nat × Except EngineError Frame))[frames.length]? = none := by
    rw [List.getElem?_eq_none_iff, List.length_map]
  rw [plain]
  simp only [Feed.ofList, nothing]

/-- A log that is not followed closes behind its frames. -/
theorem offersThen_closed (e : MemoryEngine) (frames : List Frame) :
    OffersThen life (e.logFeed frames false) frames fun m => ⟨[], m, .closed⟩ := by
  apply (beginsWith_logFeed e frames false).offersThen
  intro more m lives
  have closed : (e.logFeed frames false).pull frames.length = .closed 0 := pull_behind rfl
  exact Feed.readGuarded_closed closed lives

/-- What a reader gets that stays when nothing comes any more: the reason for which the call ends,
when it does. -/
def staying (life : Lifetime) (m : Nat) : Reading (Except EngineError Frame) :=
  match life.endsAt with
  | some ending => ⟨[⟨ending, .error (life.error ending)⟩], ending, .closed⟩
  | none => ⟨[], m, .silent⟩

/-- A log that is followed, on an engine that writes no lines of its own, is silent behind its
frames. -/
theorem offersThen_staying (quiet : e.liveInterval = none) (frames : List Frame) :
    OffersThen life (e.logFeed frames true) frames (staying life) := by
  apply (beginsWith_logFeed e frames true).offersThen
  intro more m lives
  have silent : (e.logFeed frames true).pull frames.length = .silent := by
    apply pull_behind
    rw [logFeed.eq_def, quiet]
  rw [staying]
  cases ends : life.endsAt with
  | none => exact Feed.readGuarded_silent silent ends
  | some ending =>
      have ahead : m ≤ ending := by
        rw [← Bool.not_eq_true, Lifetime.isEnded_of_endsAt ends] at lives
        omega
      rw [Feed.readGuarded_cut ends (fun wait x pulled => nomatch silent.symm.trans pulled)
        (fun wait pulled => nomatch silent.symm.trans pulled), Nat.max_eq_right ahead]

/-- The log that is opened is that of the selected frames. -/
theorem run_readLogs {id : String} {c : MemoryContainer} {now : Nat} (known : e.find? id = some c)
    (works : e.failure = none) (lives : life.isEnded (now + e.latency) = false) (o : LogOptions) :
    life.run now (ContainerEngine.readLogs e id o) =
      some ⟨now + e.latency, .ok (e.logFeed (o.select c.logs) o.follow)⟩ := by
  have found : e.require id = .ok c := by rw [require, known]
  have opened : (ContainerEngine.readLogs e id o).result =
      .ok (e.logFeed (o.select c.logs) o.follow) := by
    refine (result_enter works _).trans ?_
    rw [found]
    rfl
  have takes : (ContainerEngine.readLogs e id o).takes = some e.latency := rfl
  rw [Lifetime.run_of_live takes lives, opened]

theorem length_lt_enough (e : MemoryEngine) (frames : List Frame) (life : Lifetime) (m : Nat) :
    frames.length < (e.logFeed frames false).enough life m := by
  simp [Feed.enough, logFeed, Feed.ofList]

/-- What a feed yields of a log from which some frames are picked. -/
structure Yields (o : LogOptions) (liveInterval : Option Nat) (logs : List Frame) (life : Lifetime)
    (feed : LogFeed) (picked : List Frame) : Prop where
  picks : o.Picks logs picked
  ordered : picked.Sublist logs
  /-- Whoever reads on, after whatever pauses, gets the picked frames one after the other, each
  once. -/
  offers : Offers life feed picked
  /-- A log that is not followed ends behind them. -/
  closes : o.follow = false → OffersThen life feed picked fun m => ⟨[], m, .closed⟩
  /-- A log that is followed, of an engine that writes no lines of its own, brings nothing more
  until the call ends, and then the reason for that. -/
  stays : o.follow = true → liveInterval = none → OffersThen life feed picked (staying life)
  /-- Whoever comes back after the call has ended gets its reason alone. -/
  ended : ∀ limit read m, life.isEnded m = true →
    feed.readGuarded life (limit + 1) read m = ⟨[⟨m, .error (life.error m)⟩], m, .closed⟩
  /-- A snapshot has the entries of what is picked. -/
  snapshot : o.follow = false → ∀ m, life.isEnded m = false →
    Snapshot.collect ((feed.readAll life m).items.map (·.value)) = .ok (LineDecoder.decode picked)
  /-- A larger tail adds frames in front of these only. -/
  larger : ∀ tail more, LogOptions.Picks { o with tail := tail } logs more →
    (∀ n < UInt64.size, Decimal.Numeral tail.toList n →
      ∃ m ≤ n, Decimal.Numeral o.tail.toList m) → picked <:+ more

theorem yields_select (e : MemoryEngine) (o : LogOptions) (logs : List Frame) (life : Lifetime) :
    Yields o e.liveInterval logs life (e.logFeed (o.select logs) o.follow) (o.select logs) where
  picks := LogOptions.picks_select o logs
  ordered := (LogOptions.picks_select o logs).last.sublist.trans List.filter_sublist
  offers := (beginsWith_logFeed e _ o.follow).offers
  closes left := by
    rw [left]
    exact offersThen_closed e _
  stays follows quiet := by
    rw [follows]
    exact offersThen_staying quiet _
  ended limit read m past := Feed.readGuarded_of_ended past
  snapshot left m living := by
    have beyond : (o.select logs).length < 0 + (e.logFeed (o.select logs) false).enough life m := by
      rw [Nat.zero_add]
      apply length_lt_enough
    rw [left, Feed.readAll, offersThen_closed e (o.select logs) 0 _ m (Nat.zero_le _) beyond living]
    simp only [Reading.prepend, List.append_nil, List.drop_zero, readAt, List.map_map]
    exact Snapshot.collect_ok _
  larger tail more others bound := (LogOptions.picks_select o logs).suffix_of_larger others bound

/-- The log of a container can be read from an engine that works, in a call that lives when it is
opened: it yields the frames that are picked by the options, after the latency of the engine. -/
theorem logs_yield_picked {e : MemoryEngine} {id : String} {c : MemoryContainer}
    (known : e.find? id = some c) (works : e.failure = none) (o : LogOptions) {life : Lifetime}
    {now : Nat} (lives : life.isEnded (now + e.latency) = false) :
    ∃ feed picked,
      life.run now (ContainerEngine.readLogs e id o) = some ⟨now + e.latency, .ok feed⟩ ∧
        Yields o e.liveInterval c.logs life feed picked :=
  ⟨_, o.select c.logs, run_readLogs known works lives o, yields_select e o c.logs life⟩

def twoChannels : MemoryEngine :=
  { containers :=
      [⟨{ id := "web" }, [⟨.stdout, [0x61]⟩, ⟨.stdout, [0x62]⟩, ⟨.stderr, [0x63]⟩], none⟩]
    latency := 5 }

/-- The channel that is left out does not use up the tail; the deadline is the last thing that is
read. -/
theorem logs_yield_picked_deadline :
    let life : Lifetime := { deadline := some 9 }
    let o : LogOptions := { tail := "1", showStderr := false, follow := true }
    ∃ feed, life.run 0 (ContainerEngine.readLogs twoChannels "web" o) = some ⟨5, .ok feed⟩ ∧
      feed.readGuarded life 3 0 7 =
        ⟨[⟨7, .ok ⟨.stdout, [0x62]⟩⟩, ⟨9, .error .deadlineExceeded⟩], 9, .closed⟩ := by
  intro life o
  have known : twoChannels.find? "web" = some twoChannels.containers[0] := rfl
  have lives : life.isEnded (0 + twoChannels.latency) = false := rfl
  obtain ⟨feed, picked, opened, yields⟩ := logs_yield_picked known rfl o lives
  have numeral : Decimal.Numeral o.tail.toList 1 :=
    ⟨['1'], List.cons_ne_nil _ _, List.forall_mem_singleton.mpr rfl, rfl, .inl (by decide)⟩
  have one : picked.length = 1 := yields.picks.counted 1 (by decide) numeral
  obtain rfl : picked = [⟨.stdout, [0x62]⟩] := by
    refine List.IsSuffix.eq_of_length ?_ one
    exact List.suffix_of_suffix_length_le yields.picks.last (by decide) (Nat.le_of_eq one)
  exact ⟨feed, opened, yields.stays rfl rfl 0 3 7 (Nat.zero_le 1) (by decide) rfl⟩

end MemoryEngine

end FleetBoard
