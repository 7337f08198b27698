import FleetBoard.Proofs.Time.Calendar
import FleetBoard.Proofs.Time.Written
import FleetBoard.Time.Rfc3339

/-!
# Instants survive being written

The form of RFC 3339 loses nothing of an instant: the calendar date and the time of day are written
in full, the fraction with as many digits as it needs, and a leap second as second 60. Reading the
form gives the instant back, to the nanosecond.
-/

namespace FleetBoard.Time

/-- The instants that the form with a year of four digits can write: the year is one from 0 to 9999,
and a nanosecond beyond the second is inside a leap second, which there is only at the end of a
minute. -/
structure Instant.Writable (t : Instant) : Prop where
  year : 0 ≤ t.date.year ∧ t.date.year ≤ 9999
  nanos : t.nanos < 1_000_000_000 ∨ t.seconds % 60 = 59 ∧ t.nanos < 2_000_000_000

variable {t : Instant}

/-- A number that is padded to its width is written in so many digits. -/
theorem digits_padded {width n : Nat} (positive : 0 < width) (small : n < 10 ^ width) :
    Digits width n (Decimal.padded width n) := by
  have short := (Nat.length_toDigits_le_iff (b := 10) (by decide) positive).mpr small
  refine ⟨?_, ?_, ?_⟩
  · rw [Decimal.padded, List.length_append, List.length_replicate]
    exact Nat.sub_add_cancel short
  · intro c inside
    rcases List.mem_append.mp inside with zero | digit
    · rw [List.eq_of_mem_replicate zero]
      rfl
    · exact Nat.isDigit_of_mem_toDigits (by decide) (by decide) digit
  · change Nat.ofDigitChars 10 (_ ++ _) 0 = n
    rw [Nat.ofDigitChars_append, Nat.ofDigitChars_replicate_zero, Nat.mul_zero,
      Nat.ofDigitChars_ten_toDigits]

/-! ### Date and time of day -/

theorem dateForm_write (year : 0 ≤ t.date.year ∧ t.date.year ≤ 9999) :
    DateForm '-' t.date (writeYear t.date.year ++ '-' :: (Decimal.padded 2 t.date.month ++ '-' ::
      Decimal.padded 2 t.date.day)) := by
  obtain ⟨january, december, first, last⟩ := valid_ofDay (t.seconds / 86400)
  have days := daysInMonth_le_max t.date.year t.date.month
  rw [writeYear, if_pos year]
  refine .mk (Int.toNat_of_nonneg year.1).symm (digits_padded (by decide) ?_)
    (digits_padded (by decide) ?_)
    (digits_padded (by decide) ?_)
  · omega
  · exact Nat.lt_of_le_of_lt december (by decide)
  · exact Nat.lt_of_le_of_lt (Nat.le_trans last days) (by decide)

theorem valid_clock (t : Instant) : t.clock.Valid := by
  rw [Clock.Valid, Instant.clock]
  dsimp only
  split <;> omega

theorem clockForm_write (t : Instant) (fraction : List Char)
    (form : FractionForm fraction t.clock.nanos) :
    ClockForm t.clock
      (Decimal.padded 2 t.clock.hour ++ ':' :: (Decimal.padded 2 t.clock.minute ++ ':' ::
      (Decimal.padded 2 t.clock.second ++ fraction))) := by
  obtain ⟨hour, minute, second, -⟩ := valid_clock t
  exact .mk (digits_padded (by decide) (by omega)) (digits_padded (by decide) (by omega))
    (digits_padded (by decide) (by omega)) form

/-- The instant is the one at which its own date and time of day are shown in universal time. -/
theorem ofLocal_date_clock (writable : t.Writable) : Instant.ofLocal t.date t.clock 0 = t := by
  obtain ⟨-, nanos⟩ := writable
  obtain ⟨seconds, fraction⟩ := t
  have day : (Date.ofDay (seconds / 86400)).toDay = seconds / 86400 := toDay_ofDay _
  simp only [Instant.ofLocal, Instant.date, Instant.clock, day, Instant.mk.injEq]
  dsimp only at nanos
  by_cases leap : 1_000_000_000 ≤ fraction
  · have last : (seconds % 86400).toNat % 60 + 1 = 60 := by omega
    simp only [if_pos leap, last, if_true]
    omega
  · have other : (seconds % 86400).toNat % 60 + 0 ≠ 60 := by omega
    simp only [if_neg leap, if_neg other]
    omega

/-! ### Fractions -/

/-- The digits that are written are enough. -/
theorem fractionForm_write {nanos : Nat} (small : nanos < 1_000_000_000) :
    FractionForm (writeFraction nanos) nanos := by
  have point {width n : Nat} (bounds : 1 ≤ width ∧ width ≤ 9) (fits : n < 10 ^ width)
      (same : nanos * 10 ^ width = n * 10 ^ 9) :
        FractionForm ('.' :: Decimal.padded width n) nanos := by
    obtain ⟨length, digits, value⟩ := digits_padded (Nat.lt_of_succ_le bounds.1) fits
    rw [← length] at bounds
    exact .some digits bounds.1 bounds.2 (by rw [length, value, same])
  rw [writeFraction]
  split
  · next none =>
      subst none
      exact .none
  split
  · exact point (by decide) (by omega) (by omega)
  split
  · exact point (by decide) (by omega) (by omega)
  · exact point (by decide) small rfl

namespace Rfc3339

theorem readFraction_append {f : Fields} {fraction rest : List Char} {nanos : Nat}
    (form : FractionForm fraction nanos) (plain : f.nanos = 0) (point : '.' ∉ rest.head?)
    (stops : ∀ c ∈ rest.head?, c.isDigit = false) :
    readFraction f (fraction ++ rest) = some ({ f with nanos := nanos }, rest) := by
  cases form with
  | none =>
      rw [List.nil_append, readFraction.eq_def, ← plain]
      split
      · exact absurd rfl point
      · rfl
  | some digit first last value =>
      next digits =>
      obtain ⟨run, after⟩ := span_append digit stops
      have some : digits.isEmpty = false := by
        rw [List.isEmpty_eq_false_iff, ← List.length_pos_iff]
        exact first
      have all : digits.take 9 = digits := List.take_of_length_le last
      rw [nanosOfDigits_eq_iff last] at value
      simp only [List.cons_append, readFraction, run, after, some, all, value]
      rfl

theorem readFrom_ymd {c : Char} {year month day : Nat} {date : List Char}
    (form : DateForm c ⟨year, month, day⟩ date) (rest : List Char) :
    (Layout.ymd c).readFrom {} (date ++ rest) =
      some ({ year := year, month := month, day := day }, rest) := by
  refine Layout.readFrom_append_of_writes (by simp [Layout.ymd, Piece.isGreedy]) ?_ rest
  rw [← List.append_nil (Layout.ymd c), Layout.writes_ymd_iff]
  exact ⟨date, [], year, month, day, (List.append_nil date).symm, form, .nil⟩

theorem readFrom_hms {hour minute second : Nat} {hh mm ss : List Char} (hourForm : Digits 2 hour hh)
    (minuteForm : Digits 2 minute mm) (secondForm : Digits 2 second ss) (f : Fields)
    (rest : List Char) :
    Layout.readFrom f (hh ++ ':' :: (mm ++ ':' :: ss) ++ rest)
      [.hour, .lit ':', .minute, .lit ':', .second] =
      some ({ f with hour := hour, minute := minute, second := second }, rest) := by
  refine Layout.readFrom_append_of_writes (by decide) ?_ rest
  simp only [Layout.writes_lit_cons_iff, Layout.writes_number_cons_iff (p := .hour) rfl,
    Layout.writes_number_cons_iff (p := .minute) rfl,
      Layout.writes_number_cons_iff (p := .second) rfl]
  exact ⟨hh, _, hour, rfl, hourForm, _, rfl, mm, _, minute, rfl, minuteForm, _, rfl, ss, [], second,
    (List.append_nil ss).symm, secondForm, .nil⟩

/-- A date, a time of day and `Z` are read as they are written. -/
theorem read_of_forms {d : Date} {k : Clock} {date clock : List Char}
    (dateForm : DateForm '-' d date) (clockForm : ClockForm k clock) :
    ∃ f, read (date ++ 'T' :: (clock ++ ['Z'])) = some f ∧ f.Tells d k 0 := by
  obtain ⟨year, month, day⟩ := d
  obtain ⟨year, rfl⟩ := dateForm.exists_year
  obtain ⟨hourForm, minuteForm, secondForm, fractionForm⟩ := clockForm
  next hh mm ss fraction =>
  refine ⟨.shown year month day k, ?_, Fields.tells_shown ..⟩
  have front := readFrom_ymd dateForm
  have middle :=
    readFrom_hms hourForm minuteForm secondForm { year := year, month := month, day := day }
    (fraction ++ ['Z'])
  have back (f : Fields) (plain : f.nanos = 0) :
      readFraction f (fraction ++ ['Z']) = some ({ f with nanos := k.nanos }, ['Z']) :=
    readFraction_append fractionForm plain (by decide) (by rintro c ⟨⟩; rfl)
  simp only [List.append_assoc, List.cons_append] at middle ⊢
  simp only [read, front, middle, back, bind, Option.bind]
  rfl

/-- Every instant that can be written is read back. -/
theorem instant?_rfc3339 {t : Instant} (writable : t.Writable) :
    instant? t.rfc3339.toList = some t := by
  have clockForm :=
    clockForm_write t (writeFraction t.clock.nanos) (fractionForm_write (valid_clock t).2.2.2)
  obtain ⟨f, done, date, clock, offset, hour, minute⟩ :=
    read_of_forms (dateForm_write writable.year) clockForm
  have valid : f.Valid := by
    rw [Fields.Valid, date, clock]
    exact ⟨valid_ofDay _, valid_clock t, hour, minute⟩
  have form : t.rfc3339.toList = writeYear t.date.year ++ '-' ::
      (Decimal.padded 2 t.date.month ++ '-' ::
      Decimal.padded 2 t.date.day) ++ 'T' :: (Decimal.padded 2 t.clock.hour ++ ':' ::
        (Decimal.padded 2 t.clock.minute ++ ':' ::
          (Decimal.padded 2 t.clock.second ++ writeFraction t.clock.nanos)) ++ ['Z']) := by
    simp [Instant.rfc3339, Instant.write]
  rw [form, instant?, done]
  change f.instant? = some t
  rw [Fields.instant?, if_pos valid, date, clock, offset, ofLocal_date_clock writable]

end Rfc3339

end FleetBoard.Time
