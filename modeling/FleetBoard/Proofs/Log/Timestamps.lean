import FleetBoard.Log.Stamp
import FleetBoard.Proofs.Text.Trimming
import FleetBoard.Proofs.Time.Calendar
import FleetBoard.Proofs.Time.Written

/-!
# Which texts are timestamps, and of when

A text is a timestamp if what is left between blanks and brackets, with a comma before the fraction
taken for a point, is written in one of the ways of `Written` and says a date and a time of day that
exist. The instant is found by counting days from the epoch and the seconds of the day, less the
offset.
-/

namespace FleetBoard.Stamp

open Time

/-- The first comma becomes a point if there are digits after it, and nothing else. -/
inductive PointForComma : List Char → List Char → Prop
  | point {before after : List Char} (first : ',' ∉ before) (nonempty : after ≠ [])
      (digits : ∀ c ∈ after, c.isDigit = true) :
      PointForComma (before ++ ',' :: after) (before ++ '.' :: after)
  | same {s : List Char} (other : ∀ before after, s = before ++ ',' :: after → ',' ∉ before →
      after = [] ∨ ∃ c ∈ after, c.isDigit = false) : PointForComma s s

/-- What is left of a candidate: no blanks around it, then no brackets, then a point for a comma. -/
def Core (candidate s : List Char) : Prop :=
  ∃ plain bare, Text.Trims Text.isBlank candidate plain ∧ Text.Trims isBracket plain bare ∧
    PointForComma bare s

/-- A clock that is `offset` seconds ahead of universal time shows the date and the time of day at
this instant. A second 60 is the end of the second before it, with a billion nanoseconds more. -/
structure ShownAt (d : Date) (k : Clock) (offset : Int) (t : Instant) : Prop where
  seconds : ∃ day, DayNumber d day ∧
    t.seconds = 86400 * day + 3600 * k.hour + 60 * k.minute + min k.second 59 - offset
  nanos : t.nanos = k.nanos + if k.second = 60 then 1_000_000_000 else 0

theorem splitFirst_comma_iff {s before after : List Char} :
    Text.splitFirst (· == ',') s = some (before, after) ↔
    s = before ++ ',' :: after ∧ ',' ∉ before := by
  rw [Text.splitFirst_eq_some_iff]
  constructor
  · rintro ⟨c, here, rfl, clear⟩
    obtain rfl := beq_iff_eq.mp here
    refine ⟨rfl, ?_⟩
    intro inside
    cases clear ',' inside
  · rintro ⟨rfl, clear⟩
    refine ⟨',', rfl, rfl, ?_⟩
    intro c inside
    rw [beq_eq_false_iff_ne]
    rintro rfl
    exact clear inside

/-- Is a text a run of one or more digits? -/
theorem onlyDigits_iff {s : List Char} :
    (!s.isEmpty && s.all Char.isDigit) = true ↔ s ≠ [] ∧ ∀ c ∈ s, c.isDigit = true := by
  rw [Bool.and_eq_true, Bool.not_eq_true', List.isEmpty_eq_false_iff, List.all_eq_true]

theorem pointForComma_iff {bare s : List Char} :
    PointForComma bare s ↔ normalizeComma bare = s := by
  rw [normalizeComma]
  constructor
  · rintro (⟨first, nonempty, digits⟩ | other)
    · rw [splitFirst_comma_iff.mpr ⟨rfl, first⟩]
      exact if_pos (onlyDigits_iff.mpr ⟨nonempty, digits⟩)
    · split
      · next before after found =>
          obtain ⟨split, first⟩ := splitFirst_comma_iff.mp found
          refine if_neg ?_
          rw [onlyDigits_iff]
          rintro ⟨nonempty, digits⟩
          rcases other before after split first with empty | ⟨c, inside, letter⟩
          · exact nonempty empty
          · rw [digits c inside] at letter
            cases letter
      · rfl
  · rintro rfl
    split
    · next before after found =>
        obtain ⟨rfl, first⟩ := splitFirst_comma_iff.mp found
        split
        · next run =>
            obtain ⟨nonempty, digits⟩ := onlyDigits_iff.mp run
            exact .point first nonempty digits
        · next noRun =>
            refine .same ?_
            intro other rest same clear
            cases found.symm.trans (splitFirst_comma_iff.mpr ⟨same, clear⟩)
            by_contra run
            rw [not_or, not_exists] at run
            refine noRun (onlyDigits_iff.mpr ⟨run.1, ?_⟩)
            intro c inside
            simpa [inside] using run.2 c
    · next missing =>
        refine .same ?_
        intro before after same clear
        rw [splitFirst_comma_iff.mpr ⟨same, clear⟩] at missing
        cases missing

theorem core_iff {candidate s : List Char} : Core candidate s ↔ core candidate = s := by
  constructor
  · rintro ⟨plain, bare, blanks, brackets, form⟩
    rw [core, Text.trim, Text.trims_iff.mp blanks, Text.trims_iff.mp brackets]
    exact pointForComma_iff.mp form
  · rintro rfl
    exact ⟨_, _, Text.trims_iff.mpr rfl, Text.trims_iff.mpr rfl, pointForComma_iff.mpr rfl⟩

theorem instant?_eq_some_iff {l : Layout} {s : List Char} {t : Instant} :
    l.instant? s = some t ↔ ∃ f, l.read s = some f ∧ f.instant? = some t := by
  rw [Layout.instant?]
  cases l.read s <;> simp

/-- Where no text has two of some layouts, it does not matter which of them is tried first. -/
theorem readLayouts_eq_some_iff {layouts : List Layout} {s : List Char} {t : Instant}
    (exclusive : layouts.Pairwise fun l m =>
      ∀ s f g, l.read s = some f → m.read s = some g → False) :
    readLayouts layouts s = some t ↔ ∃ l ∈ layouts, l.instant? s = some t := by
  rw [readLayouts]
  induction exclusive with
  | nil => simp
  | cons others _ ih =>
      next l layouts _ =>
      rw [List.findSome?_cons]
      split
      · next u first =>
          rw [Option.some.injEq]
          constructor
          · rintro rfl
            exact ⟨l, List.mem_cons_self, first⟩
          · rintro ⟨m, inside, found⟩
            rcases List.mem_cons.mp inside with rfl | later
            · exact Option.some.inj (first.symm.trans found)
            · obtain ⟨f, one, -⟩ := instant?_eq_some_iff.mp first
              obtain ⟨g, other, -⟩ := instant?_eq_some_iff.mp found
              exact (others m later s f g one other).elim
      · next missing =>
          rw [ih]
          constructor
          · rintro ⟨m, later, found⟩
            exact ⟨m, List.mem_cons_of_mem l later, found⟩
          · rintro ⟨m, inside, found⟩
            rcases List.mem_cons.mp inside with rfl | later
            · rw [missing] at found
              cases found
            · exact ⟨m, later, found⟩

theorem shownAt_iff {d : Date} {k : Clock} {offset : Int} {t : Instant} (valid : d.Valid)
    (clock : k.Valid) : ShownAt d k offset t ↔ Instant.ofLocal d k offset = t := by
  obtain ⟨-, -, last, -⟩ := clock
  obtain ⟨seconds, nanos⟩ := t
  rw [Instant.ofLocal, Instant.mk.injEq]
  have second : ((if k.second = 60 then 59 else k.second : Nat) : Int) = min k.second 59 := by
    split <;> omega
  have fraction : (if k.second = 60 then k.nanos + 1_000_000_000 else k.nanos) =
      k.nanos + if k.second = 60 then 1_000_000_000 else 0 := by
    split <;> rfl
  constructor
  · rintro ⟨⟨day, counted, sum⟩, rest⟩
    obtain ⟨-, rfl⟩ := dayNumber_iff.mp counted
    dsimp only at sum rest
    refine ⟨?_, fraction.trans rest.symm⟩
    omega
  · rintro ⟨sum, rest⟩
    refine ⟨⟨d.toDay, dayNumber_iff.mpr ⟨valid, rfl⟩, ?_⟩, rest.symm.trans fraction⟩
    dsimp only
    omega

theorem parse_eq_some_iff {candidate : List Char} {t : Instant} : parse candidate = some t ↔
    ∃ s d k offset, Core candidate s ∧ Written d k offset s ∧ d.Valid ∧ k.Valid ∧
    ShownAt d k offset t := by
  rw [parse, readLayouts_eq_some_iff Layout.ofLogs_exclusive]
  constructor
  · rintro ⟨l, inside, found⟩
    obtain ⟨f, read, given⟩ := instant?_eq_some_iff.mp found
    have writes := (Layout.read_eq_some_iff (Layout.isSeparated_of_mem_ofLogs l inside)).mp read
    rw [Fields.instant?] at given
    split at given
    · next valid =>
        obtain ⟨date, clock, hour, minute⟩ := valid
        refine ⟨_, _, _, _, core_iff.mpr rfl,
          Layout.written_of_writes inside writes ⟨rfl, rfl, rfl, hour, minute⟩, date, clock,
          (shownAt_iff date clock).mpr (Option.some.inj given)⟩
    · cases given
  · rintro ⟨s, d, k, offset, bare, written, date, clock, shown⟩
    obtain ⟨l, inside, f, writes, rfl, rfl, rfl, hour, minute⟩ :=
      Layout.exists_layout_of_written written
    refine ⟨l, inside, instant?_eq_some_iff.mpr ⟨f, ?_, ?_⟩⟩
    · rw [core_iff.mp bare]
      exact (Layout.read_eq_some_iff (Layout.isSeparated_of_mem_ofLogs l inside)).mpr writes
    · rw [Fields.instant?, if_pos ⟨date, clock, hour, minute⟩, (shownAt_iff date clock).mp shown]

/-- It does not matter in which order the layouts are tried. -/
theorem readLayouts_of_perm {layouts : List Layout} (same : layouts.Perm Layout.ofLogs)
    (candidate : List Char) :
    readLayouts layouts (core candidate) = parse candidate := by
  have exclusive :=
    (same.pairwise_iff fun apart s f g one other => apart s g f other one).mpr
    Layout.ofLogs_exclusive
  refine Option.ext fun t => ?_
  rw [parse, readLayouts_eq_some_iff exclusive, readLayouts_eq_some_iff Layout.ofLogs_exclusive]
  simp only [same.mem_iff]

/-- A candidate is a timestamp just if its core is written in one of the ways and says a date and a
time of day that exist. The timestamp is the instant at which these are shown. -/
theorem parse_accepts_grammar (candidate : List Char) :
    ((parse candidate).isSome = true ↔
      ∃ s d k offset, Core candidate s ∧ Written d k offset s ∧ d.Valid ∧ k.Valid) ∧
    ∀ t, parse candidate = some t ↔ ∃ s d k offset,
      Core candidate s ∧ Written d k offset s ∧ d.Valid ∧ k.Valid ∧ ShownAt d k offset t := by
  refine ⟨?_, fun t => parse_eq_some_iff⟩
  rw [Option.isSome_iff_exists]
  constructor
  · rintro ⟨t, found⟩
    obtain ⟨s, d, k, offset, bare, written, date, clock, -⟩ := parse_eq_some_iff.mp found
    exact ⟨s, d, k, offset, bare, written, date, clock⟩
  · rintro ⟨s, d, k, offset, bare, written, date, clock⟩
    have shown := (shownAt_iff date clock).mpr (@rfl _ (Instant.ofLocal d k offset))
    exact ⟨_, parse_eq_some_iff.mpr ⟨s, d, k, offset, bare, written, date, clock, shown⟩⟩

/-- Brackets around the time, and an offset that takes it into another year. -/
example : parse "[2024-12-31T23:30:00.5-0100]".toList = some ⟨1735691400, 500_000_000⟩ := by
  decide +kernel

/-- A comma counts as a point only if there is nothing but the fraction after it. -/
example : parse "2024-12-31T23:30:00,5-0100".toList = none := by decide +kernel

end FleetBoard.Stamp
