import FleetBoard.Proofs.Json.Reading
import FleetBoard.Proofs.Log.LivePath
import FleetBoard.Proofs.Text.Trimming
import FleetBoard.Proofs.Time.Rfc3339

/-!
# Entries survive as lines of JSON

Whoever gets a live log reads it by lines: the bytes are cut at the newlines, each line is read as
JSON, and the five fields of an entry are taken off the object. This reading undoes the writing.
What could break it is a newline inside a line, but a text is escaped and so has none, whatever it
holds.
-/

namespace FleetBoard

def Level.named? (name : String) : Option Level := Level.all.find? fun level => level.name = name

@[simp] theorem Level.named?_name (level : Level) : Level.named? level.name = some level := by
  cases level <;> rfl

def Channel.named? (name : String) : Option Channel :=
  [Channel.stdout, Channel.stderr].find? fun channel => channel.name = name

@[simp] theorem Channel.named?_name (channel : Channel) :
    Channel.named? channel.name = some channel := by
  cases channel <;> rfl

/-! ### The fields of an entry -/

namespace LogEntry

def textOf? : Json → Option String
  | .str s => some s
  | _ => none

@[simp] theorem textOf?_ofText (s : Option String) : textOf? (Json.ofText s) = s := by
  cases s <;> rfl

/-- A timestamp in the form of RFC 3339; null is none. -/
def timestampOf? : Json → Option (Option Time.Instant)
  | .null => some none
  | .str s => (Time.Rfc3339.instant? s.toList).map some
  | _ => none

def ofJson? (json : Json) : Option LogEntry := do
  let timestamp ← (json.field? "timestamp").bind timestampOf?
  let level ← ((json.field? "level").bind textOf?).bind Level.named?
  let message ← (json.field? "message").bind textOf?
  let channel ← ((json.field? "stream").bind textOf?).bind Channel.named?
  let raw ← (json.field? "raw").bind textOf?
  return ⟨timestamp, level, message, channel, raw⟩

/-- The entries whose time, if there is one, has a year of four digits. -/
def Writable (e : LogEntry) : Prop := ∀ t ∈ e.timestamp, t.Writable

variable {e : LogEntry}

def texts (e : LogEntry) : List (String × Option String) :=
  [("timestamp", e.timestamp.map (·.rfc3339)), ("level", some e.level.name),
    ("message", some e.message), ("stream", some e.channel.name), ("raw", some e.raw)]

theorem toJson_eq (e : LogEntry) : e.toJson = Json.ofTexts e.texts := by
  obtain ⟨timestamp, level, message, channel, raw⟩ := e
  cases timestamp <;> rfl

theorem timestampOf?_ofText (writable : e.Writable) :
    timestampOf? (Json.ofText (e.timestamp.map (·.rfc3339))) = some e.timestamp := by
  cases time : e.timestamp with
  | none => rfl
  | some t =>
      have back := Time.Rfc3339.instant?_rfc3339 (writable t time)
      simp only [Option.map_some, Json.ofText, timestampOf?, back]

/-- The fields are found by their names, in whatever order they come. -/
theorem ofJson?_sortFields (writable : e.Writable) :
    ofJson? (.obj (Json.sortFields (e.texts.map fun f => (f.1, Json.ofText f.2)))) = some e := by
  have stamped := timestampOf?_ofText writable
  simp [ofJson?, Json.field?, Json.lookup_sortFields, texts, Json.lookup, stamped]

end LogEntry

namespace Ndjson

/-! ### Lines -/

def body (e : LogEntry) : List UInt8 := Text.utf8 e.toJson.render

theorem newline_not_mem_body (e : LogEntry) : 0x0a ∉ body e := by
  intro inside
  obtain ⟨c, there, same⟩ := Text.mem_of_mem_utf8 (by decide) inside
  obtain rfl : c = '\n' := Char.toNat_inj.mp same
  rw [LogEntry.toJson_eq] at there
  exact Json.newline_not_mem_ofTexts e.texts there

def readLine? (bytes : List UInt8) : Option LogEntry :=
  (Json.readWhole Json.Doc.toJson bytes).toOption.bind LogEntry.ofJson?

theorem readLine?_body {e : LogEntry} (writable : e.Writable) : readLine? (body e) = some e := by
  rw [readLine?, body, LogEntry.toJson_eq, Json.readWhole_ofTexts]
  exact LogEntry.ofJson?_sortFields writable

/-! ### Lists of entries -/

theorem encode_eq_flatMap (entries : List LogEntry) :
    encode entries = entries.flatMap fun e => body e ++ [0x0a] := by
  induction entries with
  | nil => rfl
  | cons e entries ih =>
      rw [encode_cons, List.flatMap_cons, ih, List.append_assoc]
      rfl

def decode? (bytes : List UInt8) : Option (List LogEntry) :=
  let pieces := Text.splitAll (· == 0x0a) bytes
  if pieces.getLast? = some [] then pieces.dropLast.mapM readLine? else none

theorem splitAll_encode (entries : List LogEntry) :
    Text.splitAll (· == 0x0a) (encode entries) = entries.map body ++ [[]] := by
  induction entries with
  | nil => rfl
  | cons e entries ih =>
      have clear : ∀ b ∈ body e, (b == 0x0a) = false := by
        intro b inside
        rw [beq_eq_false_iff_ne]
        rintro rfl
        exact newline_not_mem_body e inside
      rw [encode_cons, ← body, Text.splitAll_append_cons rfl clear, ih]
      rfl

theorem mapM_readLine? {entries : List LogEntry} (writable : ∀ e ∈ entries, e.Writable) :
    (entries.map body).mapM readLine? = some entries := by
  induction entries with
  | nil => rfl
  | cons e entries ih =>
      have others := ih fun d inside => writable d (List.mem_cons_of_mem e inside)
      rw [List.map_cons, List.mapM_cons, readLine?_body (writable e List.mem_cons_self), others]
      rfl

theorem decode?_encode {entries : List LogEntry} (writable : ∀ e ∈ entries, e.Writable) :
    decode? (encode entries) = some entries := by
  have pieces := splitAll_encode entries
  simp only [decode?, pieces, List.getLast?_concat, List.dropLast_concat, if_true]
  exact mapM_readLine? writable

theorem count_encode (entries : List LogEntry) : (encode entries).count 0x0a = entries.length := by
  induction entries with
  | nil => rfl
  | cons e entries ih =>
      have clear := List.count_eq_zero_of_not_mem (newline_not_mem_body e)
      rw [encode_cons, ← body, List.count_append, clear, List.count_cons_self, ih, Nat.zero_add,
        List.length_cons]

/-- How entries are encoded, and what can be told of them from their bytes. -/
structure Lossless (entries : List LogEntry) : Prop where
  framed : encode entries = (entries.flatMap fun e => body e ++ [0x0a])
  lines : ∀ e ∈ entries, 0x0a ∉ body e ∧ readLine? (body e) = some e
  count : (encode entries).count 0x0a = entries.length
  back : decode? (encode entries) = some entries
  unique : ∀ others : List LogEntry, (∀ e ∈ others, e.Writable) →
    encode others = encode entries → others = entries
  appended : ∀ others : List LogEntry, encode (entries ++ others) = encode entries ++ encode others

/-- Encoded entries are lines that each end with their only newline, and reading them as JSON gives
back the entries. So no two lists of entries are encoded alike, and lists are encoded one after the
other. -/
theorem encoding_lossless (entries : List LogEntry) (writable : ∀ e ∈ entries, e.Writable) :
    Lossless entries where
  framed := encode_eq_flatMap entries
  lines e inside := ⟨newline_not_mem_body e, readLine?_body (writable e inside)⟩
  count := count_encode entries
  back := decode?_encode writable
  unique others writableOthers same := by
    have back := decode?_encode writableOthers
    rw [same, decode?_encode writable] at back
    exact (Option.some.inj back).symm
  appended := encode_append entries

/-- Half a second into the leap second at the end of 2016, with texts that are full of what is
escaped; then an entry without a time. -/
theorem encoding_lossless_leapSecond :
    let entries : List LogEntry :=
      [⟨some ⟨1483228799, 1_500_000_000⟩, .warn, "a\n\"b\"\\ \u0001 ü🦀", .stderr,
          "2016-12-31T23:59:60.5Z\t"⟩,
        ⟨none, .unknown, "", .stdout, "\r\n"⟩]
    (∀ e ∈ entries, e.Writable) ∧ (encode entries).count 0x0a = 2 ∧
      decode? (encode entries) = some entries := by
  intro entries
  have writable : ∀ e ∈ entries, e.Writable := by
    intro e inside t time
    rcases List.mem_cons.mp inside with rfl | inside
    · obtain rfl := Option.some.inj time
      exact ⟨by decide, .inr (by decide)⟩
    · obtain rfl := List.mem_singleton.mp inside
      cases time
  have lossless := encoding_lossless entries writable
  exact ⟨writable, lossless.count, lossless.back⟩

end Ndjson

end FleetBoard
