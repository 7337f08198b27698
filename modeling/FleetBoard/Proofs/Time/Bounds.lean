import FleetBoard.Proofs.Time.Lengths
import FleetBoard.Proofs.Time.Typed
import FleetBoard.Time.Bound
import Mathlib.Order.Bounds.Basic

/-!
# A bound in time has one reading

The readers of bounds are tried one after another. No text that is a length of time is a number or a
time, since a unit has letters that neither has in this place; and no time is a number, since none
has a character like the one between date and time of day. So a length is always counted back from
now, and nothing else looks at the clock.
-/

namespace FleetBoard.Time

open Decimal

/-- The last whole second that begins no later than so many nanoseconds before an instant. No second
begins inside a leap second, which belongs to the second that it follows. -/
def LastSecond (t : Instant) (ago : Nat) (second : Int) : Prop :=
  IsGreatest {n : Int | n ≤ t.seconds ∧
    1_000_000_000 * n + ago ≤ 1_000_000_000 * t.seconds + t.nanos} second

variable {s : List Char} {text : String} {now : Instant} {d : Date} {k : Clock} {offset : Int}

theorem lastSecond_secondsBefore (t : Instant) (ago : Nat) :
    LastSecond t ago (t.secondsBefore ago) := by
  rw [Instant.secondsBefore]
  constructor
  · constructor
    · exact Int.min_le_left _ _
    · omega
  · rintro n ⟨before, early⟩
    rw [le_min_iff]
    omega

theorem lastSecond_seconds (t : Instant) : LastSecond t 0 t.seconds := by
  constructor
  · exact ⟨Int.le_refl _, by omega⟩
  · rintro n ⟨before, -⟩
    exact before

/-! ### Texts of one kind only -/

theorem finiteNumber?_eq_some_iff {x : Float} :
    finiteNumber? s = some x ↔ WithSign Unsigned s x ∧ x.isFinite = true := by
  rw [← readFloat?_eq_some_finite_iff, finiteNumber?]
  cases readFloat? s with
  | none => simp
  | some y =>
      dsimp only
      split
      · next finite =>
          rw [Option.some.injEq]
          constructor
          · rintro rfl
            exact ⟨rfl, finite⟩
          · exact And.left
      · next infinite =>
          refine ⟨nofun, ?_⟩
          rintro ⟨⟨⟩, finite⟩
          exact absurd finite infinite

/-- A character that no number has. -/
theorem no_number_of_mem {c : Char} (inside : c ∈ s) (other : isFigure c = false) :
    readSigned? s = none ∧ finiteNumber? s = none := by
  constructor
  · rw [Option.eq_none_iff_forall_ne_some]
    intro i read
    have figure := (readSigned?_eq_some_iff.mp read).1.isFigure c inside
    rw [other] at figure
    cases figure
  · rw [Option.eq_none_iff_forall_ne_some]
    intro x read
    have figure := (finiteNumber?_eq_some_iff.mp read).1.isFigure c inside
    rw [other] at figure
    cases figure

/-- The character between date and time of day keeps a time from being a number. -/
theorem Typed.no_number (typed : Typed d k offset s) :
    readSigned? s = none ∧ finiteNumber? s = none := by
  obtain ⟨-, separated, -, -, -, -, -⟩ := typed
  refine no_number_of_mem (List.mem_append_right _ List.mem_cons_self) ?_
  rcases separated with rfl | rfl | rfl <;> rfl

/-- The first character of a time that is neither a digit nor a point is the one after the year. -/
theorem Typed.dropWhile (typed : Typed d k offset s) :
    ∃ t, s.dropWhile Span.isNumberChar = '-' :: t := by
  obtain ⟨⟨-, year, -, -⟩, -, -, -, -, -, -⟩ := typed
  have run : ∀ c ∈ _, Span.isNumberChar c = true := fun c inside => by
    rw [Span.isNumberChar, year.digits c inside, Bool.true_or]
  rw [List.append_assoc, List.dropWhile_append_of_pos run]
  exact ⟨_, rfl⟩

namespace Span

variable (p : Pair) (pairs : List Pair)

theorem not_isFigure_of_unit : ∀ unit ∈ units.map Prod.fst, ∀ c ∈ unit, isFigure c = false := by
  simp [units, isFigure]

/-- The letters of a unit are in no number. -/
theorem unit_cons : ∃ c t, p.unit = c :: t ∧ isFigure c = false := by
  obtain ⟨c, t, same⟩ := List.exists_cons_of_ne_nil p.unit_ne_nil
  exact ⟨c, t, same, not_isFigure_of_unit p.unit (List.mem_map_of_mem p.known) c
    (same ▸ List.mem_cons_self)⟩

theorem exists_unit : ∃ c ∈ written (p :: pairs), isFigure c = false := by
  obtain ⟨c, t, same, other⟩ := unit_cons p
  have inside : c ∈ p.unit := same ▸ List.mem_cons_self
  exact ⟨c, List.mem_append_left _ (List.mem_append_right _ inside), other⟩

theorem readFloat?_written : readFloat? (written (p :: pairs)) = none := by
  rw [Option.eq_none_iff_forall_ne_some]
  intro x read
  rcases number_or_word_of_read read with number | word
  · obtain ⟨c, inside, other⟩ := exists_unit p pairs
    have figure := number.isFigure c inside
    rw [other] at figure
    cases figure
  · obtain ⟨c, t, same, plain, clear⟩ := word.head_of_word
    have first := head_written (p :: pairs) c (by rw [same]; rfl)
    rw [isNumberChar, plain, Bool.false_or, beq_iff_eq] at first
    exact clear first

theorem readSigned?_written : readSigned? (written (p :: pairs)) = none := by
  obtain ⟨c, inside, other⟩ := exists_unit p pairs
  exact (no_number_of_mem inside other).1

/-- After the digits of a length there is a unit, and after those of a year a hyphen. -/
theorem instant?_written : Rfc3339.instant? (written (p :: pairs)) = none := by
  rw [Option.eq_none_iff_forall_ne_some]
  intro t read
  obtain ⟨d, k, offset, typed, -, -, -⟩ := Rfc3339.instant?_eq_some_iff_typed.mp read
  obtain ⟨rest, hyphen⟩ := typed.dropWhile
  rw [written_cons, (p.cut_text (head_written pairs)).1.2] at hyphen
  obtain ⟨c, unit, same, other⟩ := unit_cons p
  rw [same] at hyphen
  rw [(List.cons.inj hyphen).1] at other
  cases other

end Span

/-! ### The one reading -/

/-- A length is nothing else that a bound can be. -/
theorem only_length {ago : Nat} (accepted : Span.parse? s = some ago) :
    readSigned? s = none ∧ readFloat? s = none ∧ Rfc3339.instant? s = none := by
  obtain ⟨pairs, filled, rfl, -, -⟩ := Span.parse?_eq_some_iff.mp accepted
  obtain ⟨p, pairs, rfl⟩ := List.exists_cons_of_ne_nil filled
  exact ⟨Span.readSigned?_written p pairs, Span.readFloat?_written p pairs,
    Span.instant?_written p pairs⟩

/-- A text of blanks alone needs no rule of its own: no reader accepts the empty text. -/
theorem resolveBound_eq (text : String) (now : Instant) :
    resolveBound text now = readBound (Text.trim text.toList) now := by
  rw [resolveBound]
  cases Text.trim text.toList with
  | nil => rfl
  | cons c s => rfl

theorem readBound_of_length {ago : Nat} (accepted : Span.parse? s = some ago) (now : Instant) :
    readBound s now = some (now.secondsBefore ago) := by
  obtain ⟨noInteger, noFloat, noTime⟩ := only_length accepted
  rw [readBound, noInteger, finiteNumber?, noFloat, noTime, accepted]
  rfl

theorem readBound_of_typed {t : Instant} (typed : Typed d k offset s) (date : d.Valid)
    (clock : k.Valid) (shown : Stamp.ShownAt d k offset t) (now : Instant) :
    readBound s now = some t.seconds := by
  obtain ⟨noInteger, noNumber⟩ := typed.no_number
  rw [readBound, noInteger, noNumber, Rfc3339.instant?_eq_some_iff_typed.mpr
    ⟨d, k, offset, typed, date, clock, shown⟩]

/-- Only a length is read by the clock. -/
theorem readBound_of_no_length (refused : Span.parse? s = none) (now later : Instant) :
    readBound s later = readBound s now := by
  simp only [readBound, refused, Option.map_none]

theorem readBound_eq_none_iff (refused : Span.parse? s = none) (now : Instant) :
    readBound s now = none ↔
      (¬ ∃ i, Signed s i ∧ minSigned ≤ i ∧ i ≤ maxSigned) ∧
      (¬ ∃ x, WithSign Unsigned s x ∧ x.isFinite = true) ∧
      ¬ ∃ d k offset, Typed d k offset s ∧ d.Valid ∧ k.Valid := by
  have time : (∃ d k offset, Typed d k offset s ∧ d.Valid ∧ k.Valid) ↔
      ∃ t, Rfc3339.instant? s = some t := by
    simp only [Rfc3339.instant?_eq_some_iff_typed]
    constructor
    · rintro ⟨d, k, offset, typed, date, clock⟩
      exact ⟨_, d, k, offset, typed, date, clock, (Stamp.shownAt_iff date clock).mpr rfl⟩
    · rintro ⟨t, d, k, offset, typed, date, clock, -⟩
      exact ⟨d, k, offset, typed, date, clock⟩
  simp only [← readSigned?_eq_some_iff, ← finiteNumber?_eq_some_iff, time]
  rw [readBound, refused]
  cases readSigned? s with
  | some i => simp
  | none =>
      cases finiteNumber? s with
      | some x => simp
      | none => cases Rfc3339.instant? s <;> simp

/-- The one reading of a bound: of a text, and of what is left of it without the blanks around
it. -/
structure OneReading (text : String) (s : List Char) (now : Instant) : Prop where
  /-- A length of time is none of the things that are tried before. -/
  alone : ∀ ago, Span.parse? s = some ago →
    readSigned? s = none ∧ readFloat? s = none ∧ Rfc3339.instant? s = none
  length : ∀ ago, Span.parse? s = some ago →
    ∃ second, resolveBound text now = some second ∧ LastSecond now ago second
  timeless : Span.parse? s = none → ∀ later, resolveBound text later = resolveBound text now
  /-- Without a length there is no reading but of a whole number of 64 bits, a finite decimal number
  or a time that exists. -/
  unread : Span.parse? s = none → (resolveBound text now = none ↔
    (¬ ∃ i, Signed s i ∧ minSigned ≤ i ∧ i ≤ maxSigned) ∧
      (¬ ∃ x, WithSign Unsigned s x ∧ x.isFinite = true) ∧
      ¬ ∃ d k offset, Typed d k offset s ∧ d.Valid ∧ k.Valid)
  /-- A time stands for the last whole second at or before its instant, whatever its offset is. -/
  time : ∀ d k offset, Typed d k offset s → d.Valid → k.Valid →
    ∃ t, Stamp.ShownAt d k offset t ∧
      ∃ second, resolveBound text now = some second ∧ LastSecond t 0 second

/-- A text that is a length of time when the blanks around it are gone is counted back from now. Any
other text has a reading that does not depend on the clock, or none. -/
theorem resolveBound_one_reading (now : Instant) (trimmed : Text.Trims Text.isBlank text.toList s) :
    OneReading text s now := by
  have same : ∀ moment, resolveBound text moment = readBound s moment := by
    intro moment
    rw [resolveBound_eq, Text.trim, Text.trims_iff.mp trimmed]
  refine {
    alone := fun _ => only_length
    length := ?_
    timeless := ?_
    unread := ?_
    time := ?_ }
  · intro ago accepted
    rw [same]
    exact ⟨_, readBound_of_length accepted now, lastSecond_secondsBefore now ago⟩
  · intro refused later
    rw [same, same]
    exact readBound_of_no_length refused now later
  · intro refused
    rw [same]
    exact readBound_eq_none_iff refused now
  · intro d k offset typed date clock
    have shown := (Stamp.shownAt_iff date clock).mpr (@rfl _ (Instant.ofLocal d k offset))
    rw [same]
    exact ⟨_, shown, _, readBound_of_typed typed date clock shown now, lastSecond_seconds _⟩

theorem resolveBound_one_reading_tenMinutes :
    Text.Trims Text.isBlank " 10m".toList "10m".toList ∧
      Span.parse? "10m".toList = some 600_000_000_000 ∧
      resolveBound " 10m" ⟨1_704_110_400, 5⟩ = some 1_704_109_800 := by
  have trimmed : Text.Trims Text.isBlank " 10m".toList "10m".toList :=
    Text.trims_iff.mpr (by decide)
  have accepted : Span.parse? "10m".toList = some 600_000_000_000 := by decide +kernel
  obtain ⟨second, resolved, last⟩ :=
    (resolveBound_one_reading ⟨1_704_110_400, 5⟩ trimmed).length _ accepted
  rw [last.unique (lastSecond_secondsBefore _ _)] at resolved
  exact ⟨trimmed, accepted, resolved⟩

end FleetBoard.Time
