import FleetBoard.Log.Lines

/-!
# Decoding one channel at a time

The two channels of a log share nothing but the order in which their entries come out. The entries
of a channel are those of its own bytes, put together into a single frame: neither the places at
which the bytes were cut nor what arrived on the other channel in between can be seen in them.

The invariant is carried by the splitter of the channel. After any frames it is the splitter that
the bytes of the channel leave when they are pushed at once (`feed_splitter`), so one induction over
the frames relates every cutting and every interleaving to the same run.
-/

namespace FleetBoard.LineDecoder

def reader : Transducer LineDecoder Frame LogEntry where
  step := push
  finish d := d.finish.1

def completed (frames : List Frame) : List LogEntry := (reader.feed {} frames).1

def decode (frames : List Frame) : List LogEntry := reader.run {} frames

/-- The bytes that some frames bring on a channel. -/
def bytesOn (channel : Channel) (frames : List Frame) : List UInt8 :=
  (frames.filter (·.channel = channel)).flatMap (·.data)

/-- The entry, if there is one, of the line that is begun on a channel. -/
def tail (d : LineDecoder) (channel : Channel) : List LogEntry :=
  classifyLines channel (d.splitter channel).finish.1.toList

theorem classifyLines_append (channel : Channel) (xs ys : List String) :
    classifyLines channel (xs ++ ys) = classifyLines channel xs ++ classifyLines channel ys := by
  simp [classifyLines]

theorem channel_of_mem_classifyLines {channel : Channel} {lines : List String} {entry : LogEntry}
    (member : entry ∈ classifyLines channel lines) : entry.channel = channel := by
  obtain ⟨line, -, rfl⟩ := List.mem_map.mp member
  rfl

/-- Lines that are blank have been left out before they are classified, and the raw text of an entry
is the line itself. -/
theorem not_blank_of_mem_classifyLines {channel : Channel} {lines : List String} {entry : LogEntry}
    (member : entry ∈ classifyLines channel lines) :
    ∃ c ∈ entry.raw.toList, Text.isBlank c = false := by
  obtain ⟨line, kept, rfl⟩ := List.mem_map.mp member
  have visible : Text.isAllBlank line.toList = false := by simpa using (List.mem_filter.mp kept).2
  obtain ⟨c, inside, solid⟩ := List.all_eq_false.mp visible
  exact ⟨c, inside, by simpa using solid⟩

theorem filter_classifyLines_same (channel : Channel) (lines : List String) :
    (classifyLines channel lines).filter (·.channel = channel) = classifyLines channel lines := by
  apply List.filter_eq_self.mpr
  intro entry member
  simpa using channel_of_mem_classifyLines member

theorem filter_classifyLines_ne {channel other : Channel} (different : other ≠ channel)
    (lines : List String) : (classifyLines other lines).filter (·.channel = channel) = [] := by
  apply List.filter_eq_nil_iff.mpr
  intro entry member
  simpa [channel_of_mem_classifyLines member] using different

/-! ### One frame -/

theorem push_entries (d : LineDecoder) (frame : Frame) :
    (d.push frame).1 =
      classifyLines frame.channel ((d.splitter frame.channel).push frame.data).1 := rfl

theorem push_splitter (d : LineDecoder) (frame : Frame) (channel : Channel) :
    (d.push frame).2.splitter channel =
      ((d.splitter channel).push (bytesOn channel [frame])).2 := by
  by_cases same : frame.channel = channel
  · subst same
    simp [push, bytesOn]
  · simp [push, bytesOn, same, splitter_setSplitter_ne]

theorem filter_push (d : LineDecoder) (frame : Frame) (channel : Channel) :
    (d.push frame).1.filter (·.channel = channel) =
      classifyLines channel ((d.splitter channel).push (bytesOn channel [frame])).1 := by
  rw [push_entries]
  by_cases same : frame.channel = channel
  · subst same
    simp [bytesOn, filter_classifyLines_same]
  · rw [filter_classifyLines_ne same]
    simp [bytesOn, same, classifyLines]

/-! ### Many frames -/

theorem bytesOn_cons (channel : Channel) (frame : Frame) (frames : List Frame) :
    bytesOn channel (frame :: frames) = bytesOn channel [frame] ++ bytesOn channel frames := by
  by_cases same : frame.channel = channel <;> simp [bytesOn, same]

/-- The splitter of a channel depends on the bytes of the channel alone. -/
theorem feed_splitter (d : LineDecoder) (frames : List Frame) (channel : Channel) :
    (reader.feed d frames).2.splitter channel =
      ((d.splitter channel).push (bytesOn channel frames)).2 := by
  induction frames generalizing d with
  | nil => rfl
  | cons frame frames ih =>
      rw [Transducer.feed_cons, bytesOn_cons, LineSplitter.push_append]
      change (reader.feed (d.push frame).2 frames).2.splitter channel = _
      rw [ih, push_splitter]

/-- The entries of a channel depend on the bytes of the channel alone. -/
theorem filter_feed (d : LineDecoder) (frames : List Frame) (channel : Channel) :
    (reader.feed d frames).1.filter (·.channel = channel) =
      classifyLines channel ((d.splitter channel).push (bytesOn channel frames)).1 := by
  induction frames generalizing d with
  | nil => rfl
  | cons frame frames ih =>
      rw [Transducer.feed_cons, bytesOn_cons, LineSplitter.push_append, classifyLines_append,
        List.filter_append]
      change (d.push frame).1.filter _ ++ (reader.feed (d.push frame).2 frames).1.filter _ = _
      rw [ih, filter_push, push_splitter]

/-! ### The end of the log -/

theorem finish_entries (d : LineDecoder) : d.finish.1 = d.tail .stdout ++ d.tail .stderr := rfl

@[simp] theorem finish_rest (d : LineDecoder) : d.finish.2 = {} := by
  change (⟨d.stdout.finish.2, d.stderr.finish.2⟩ : LineDecoder) = {}
  rw [LineSplitter.finish_rest, LineSplitter.finish_rest]

theorem filter_finish (d : LineDecoder) (channel : Channel) :
    d.finish.1.filter (·.channel = channel) = d.tail channel := by
  rw [finish_entries, List.filter_append]
  cases channel with
  | stdout =>
      rw [tail, tail, filter_classifyLines_same, filter_classifyLines_ne (by decide),
        List.append_nil]
  | stderr =>
      rw [tail, tail, filter_classifyLines_same, filter_classifyLines_ne (by decide),
        List.nil_append]

/-- The entries of a channel are those of the lines that are read out of its bytes. -/
theorem filter_decode (frames : List Frame) (channel : Channel) :
    (decode frames).filter (·.channel = channel) =
      classifyLines channel (LineSplitter.reader.run {} (bytesOn channel frames)) := by
  have fresh : ({} : LineDecoder).splitter channel = {} := by cases channel <;> rfl
  change ((reader.feed {} frames).1 ++ (reader.feed {} frames).2.finish.1).filter _ = _
  rw [List.filter_append, filter_feed, filter_finish, tail, feed_splitter, fresh,
    LineSplitter.finish_line, ← classifyLines_append]
  rfl

theorem mem_decode {frames : List Frame} {entry : LogEntry} (member : entry ∈ decode frames) :
    entry ∈ classifyLines entry.channel
      (LineSplitter.reader.run {} (bytesOn entry.channel frames)) := by
  rw [← filter_decode]
  exact List.mem_filter.mpr ⟨member, by simp⟩

/-- A log of one frame has no entries on the other channel, whose bytes are none. -/
theorem decode_single (channel : Channel) (bytes : List UInt8) :
    decode [⟨channel, bytes⟩] = classifyLines channel (LineSplitter.reader.run {} bytes) := by
  have own : bytesOn channel [⟨channel, bytes⟩] = bytes := by simp [bytesOn]
  have all : (decode [⟨channel, bytes⟩]).filter (·.channel = channel) =
      decode [⟨channel, bytes⟩] := by
    apply List.filter_eq_self.mpr
    intro entry member
    by_cases same : channel = entry.channel
    · simp [same]
    · have inside := mem_decode member
      rw [show bytesOn entry.channel [⟨channel, bytes⟩] = [] by simp [bytesOn, same]] at inside
      exact absurd inside List.not_mem_nil
  rw [← all, filter_decode, own]

/-- What is decoded of frames, and what a decoder that has read any frames does at the next one and
at the end of the log. -/
structure Channelwise (frames : List Frame) : Prop where
  /-- The entries of a channel are those of a single frame that holds all its bytes. -/
  alone : ∀ channel, (decode frames).filter (·.channel = channel) =
    decode [⟨channel, bytesOn channel frames⟩]
  pushed : ∀ (d : LineDecoder) (frame : Frame), ∀ entry ∈ (d.push frame).1,
    entry.channel = frame.channel
  visible : ∀ entry ∈ decode frames, ∃ c ∈ entry.raw.toList, Text.isBlank c = false
  tails : ∀ d : LineDecoder, d.finish.1 = d.tail .stdout ++ d.tail .stderr
  ofTail : ∀ (d : LineDecoder) (channel : Channel), ∀ entry ∈ d.tail channel,
    entry.channel = channel
  emptied : ∀ (d : LineDecoder) (channel : Channel), (d.finish.2.splitter channel).size = 0
  spent : ∀ d : LineDecoder, d.finish.2.finish.1 = []

/-- Cutting and interleaving do not matter: the entries of a channel are those of a single frame
that holds all its bytes. A frame brings entries of its own channel only, none is blank, and the end
of the log gives the tail of stdout before that of stderr and leaves nothing behind. -/
theorem decode_channelwise (frames : List Frame) : Channelwise frames where
  alone channel := by rw [filter_decode, decode_single]
  pushed _ _ _ member := channel_of_mem_classifyLines member
  visible _ member := not_blank_of_mem_classifyLines (mem_decode member)
  tails := finish_entries
  ofTail _ _ _ member := channel_of_mem_classifyLines member
  emptied d channel := by
    rw [finish_rest]
    cases channel <;> rfl
  spent d := by
    rw [finish_rest]
    rfl

def interleaved : List Frame :=
  [⟨.stdout, [0x61]⟩, ⟨.stderr, [0x65, 0x0a]⟩, ⟨.stdout, [0x62]⟩]

/-- The line of stdout is whole, although it ends after that of stderr. -/
theorem decode_channelwise_interleaved :
    (decode interleaved).filter (·.channel = .stdout) = decode [⟨.stdout, [0x61, 0x62]⟩] ∧
      (LogEntry.classify .stderr "e" ∈ (({} : LineDecoder).push ⟨.stderr, [0x65, 0x0a]⟩).1 ∧
        (LogEntry.classify .stderr "e").channel = .stderr) ∧
      (LogEntry.classify .stdout "ab" ∈ decode interleaved ∧
        ∃ c ∈ (LogEntry.classify .stdout "ab").raw.toList, Text.isBlank c = false) ∧
      (LogEntry.classify .stdout "ab" ∈ tail ⟨⟨#[0x61, 0x62]⟩, {}⟩ .stdout ∧
        (LogEntry.classify .stdout "ab").channel = .stdout) := by
  have decodes := decode_channelwise interleaved
  have entries : decode interleaved =
      [LogEntry.classify .stderr "e", LogEntry.classify .stdout "ab"] := rfl
  have lineEnds : LogEntry.classify .stderr "e" ∈
      (({} : LineDecoder).push ⟨.stderr, [0x65, 0x0a]⟩).1 := List.mem_singleton.mpr rfl
  have decoded : LogEntry.classify .stdout "ab" ∈ decode interleaved := by
    rw [entries]
    exact List.mem_cons_of_mem _ (List.mem_singleton.mpr rfl)
  have begun : LogEntry.classify .stdout "ab" ∈ tail ⟨⟨#[0x61, 0x62]⟩, {}⟩ .stdout :=
    List.mem_singleton.mpr rfl
  exact ⟨decodes.alone .stdout, ⟨lineEnds, decodes.pushed _ _ _ lineEnds⟩,
    ⟨decoded, decodes.visible _ decoded⟩, ⟨begun, decodes.ofTail _ _ _ begun⟩⟩

end FleetBoard.LineDecoder
