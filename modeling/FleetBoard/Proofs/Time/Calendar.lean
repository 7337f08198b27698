import FleetBoard.Time.Calendar
import Mathlib.Tactic.IntervalCases
import Mathlib.Tactic.ByContra

/-!
# Days and dates

The calendar is a sequence of days: each date has a next one, and counting starts at the epoch.
`DayNumber` says just this. That `Date.toDay` finds the number by arithmetic, and that `Date.ofDay`
finds the date of a number, are the theorems of this module.
-/

namespace FleetBoard.Time

def Date.epoch : Date := ⟨1970, 1, 1⟩

def Date.next (d : Date) : Date :=
  if d.day < daysInMonth d.year d.month then ⟨d.year, d.month, d.day + 1⟩
  else if d.month < 12 then ⟨d.year, d.month + 1, 1⟩
  else ⟨d.year + 1, 1, 1⟩

/-- The number of a date, counted day by day from the epoch, forwards and backwards. -/
inductive DayNumber : Date → Int → Prop
  | epoch : DayNumber .epoch 0
  | next {d : Date} {n : Int} (before : DayNumber d n) : DayNumber d.next (n + 1)
  | previous {d : Date} {n : Int} (valid : d.Valid) (after : DayNumber d.next (n + 1)) :
      DayNumber d n

/-! ### Years -/

def daysInYear (year : Int) : Int := if isLeapYear year then 366 else 365

theorem isLeapYear_iff {year : Int} :
    isLeapYear year = true ↔ year % 4 = 0 ∧ (year % 100 ≠ 0 ∨ year % 400 = 0) := by
  simp [isLeapYear]

theorem daysBeforeYear_succ (year : Int) :
    daysBeforeYear (year + 1) = daysBeforeYear year + daysInYear year := by
  rw [daysInYear, daysBeforeYear, daysBeforeYear]
  split
  · next leap =>
      rw [isLeapYear_iff] at leap
      omega
  · next common =>
      rw [isLeapYear_iff] at common
      omega

/-- The calendar repeats after four hundred years. -/
theorem daysBeforeYear_cycle (cycle year : Int) :
    daysBeforeYear (400 * cycle + year) = 146097 * cycle + daysBeforeYear year := by
  rw [daysBeforeYear, daysBeforeYear]
  omega

theorem isLeapYear_cycle (cycle year : Int) :
    isLeapYear (400 * cycle + year) = isLeapYear year := by
  rw [Bool.eq_iff_iff, isLeapYear_iff, isLeapYear_iff]
  omega

/-! ### Months -/

theorem one_le_daysInMonth (year : Int) (month : Nat) : 1 ≤ daysInMonth year month := by
  rw [daysInMonth.eq_def]
  split <;> try decide
  split <;> decide

theorem daysInMonth_le_max (year : Int) (month : Nat) : daysInMonth year month ≤ 31 := by
  rw [daysInMonth.eq_def]
  split <;> try decide
  split <;> decide

theorem daysBeforeMonth_succ {year : Int} {month : Nat} (first : 1 ≤ month) (last : month < 12) :
    daysBeforeMonth (isLeapYear year) (month + 1) =
      daysBeforeMonth (isLeapYear year) month + daysInMonth year month := by
  cases leap : isLeapYear year <;> interval_cases month <;>
    simp [daysBeforeMonth, daysInMonth, leap]

theorem daysBeforeMonth_december {year : Int} :
    (daysBeforeMonth (isLeapYear year) 12 + daysInMonth year 12 : Int) = daysInYear year := by
  cases leap : isLeapYear year <;> simp [daysBeforeMonth, daysInMonth, daysInYear, leap]

/-- The day of the year of a date, counted from 0. -/
def Date.ofYear (d : Date) : Nat := daysBeforeMonth (isLeapYear d.year) d.month + (d.day - 1)

theorem toDay_eq {d : Date} (valid : d.Valid) :
    d.toDay = daysBeforeYear d.year + d.ofYear - daysBeforeEpoch := by
  have first := valid.2.2.1
  rw [Date.toDay, Date.ofYear]
  omega

theorem daysBeforeMonth_add_le {year : Int} {month : Nat} (first : 1 ≤ month) (last : month ≤ 12) :
    (daysBeforeMonth (isLeapYear year) month + daysInMonth year month : Int) ≤ daysInYear year := by
  cases leap : isLeapYear year <;> interval_cases month <;>
    simp [daysBeforeMonth, daysInMonth, daysInYear, leap]

theorem ofYear_lt {d : Date} (valid : d.Valid) : (d.ofYear : Int) < daysInYear d.year := by
  obtain ⟨january, december, first, last⟩ := valid
  have within := @daysBeforeMonth_add_le d.year _ january december
  rw [Date.ofYear]
  omega

theorem daysInMonth_le (year : Int) {month : Nat} (january : 1 ≤ month) (december : month ≤ 12) :
    daysInMonth year month ≤
      if month = 12 then 31
      else daysBeforeMonth (isLeapYear year) (month + 1) -
        daysBeforeMonth (isLeapYear year) month := by
  split
  · exact daysInMonth_le_max year month
  · rw [daysBeforeMonth_succ january (by omega), Nat.add_sub_cancel_left]

/-- A month holds the days from its start to the start of the next. -/
theorem monthOfDay_add (leap : Bool) : ∀ month < 13, 1 ≤ month →
    ∀ day < if month = 12 then 31
        else daysBeforeMonth leap (month + 1) - daysBeforeMonth leap month,
      monthOfDay leap (daysBeforeMonth leap month + day) = month := by
  cases leap <;> decide +kernel

/-- The month of a date is found again in its day of the year. -/
theorem monthOfDay_ofYear {d : Date} (valid : d.Valid) :
    monthOfDay (isLeapYear d.year) d.ofYear = d.month := by
  obtain ⟨january, december, first, last⟩ := valid
  have within := daysInMonth_le d.year january december
  exact monthOfDay_add _ _ (Nat.lt_succ_of_le december) january _ (by omega)

/-! ### The number of a date and the date of a number -/

/-- Tomorrow's number is one more. -/
theorem toDay_next {d : Date} (valid : d.Valid) : d.next.toDay = d.toDay + 1 := by
  obtain ⟨january, december, first, last⟩ := valid
  rw [Date.next]
  split
  · simp only [Date.toDay]
    omega
  · next monthEnds =>
      have lastDay : d.day = daysInMonth d.year d.month := by omega
      split
      · next inYear =>
          have later := @daysBeforeMonth_succ d.year _ january inYear
          simp only [Date.toDay, later]
          omega
      · next yearEnds =>
          have lastMonth : d.month = 12 := by omega
          have later := daysBeforeYear_succ d.year
          have whole := @daysBeforeMonth_december d.year
          have start : ∀ leap, daysBeforeMonth leap 1 = 0 := fun _ => rfl
          simp only [Date.toDay, later, start, lastMonth]
          rw [lastMonth] at lastDay
          omega

theorem valid_next {d : Date} (valid : d.Valid) : d.next.Valid := by
  obtain ⟨january, december, first, last⟩ := valid
  rw [Date.next]
  split
  · next inMonth => exact ⟨january, december, Nat.le_add_left 1 _, inMonth⟩
  · split
    · next inYear =>
        exact ⟨Nat.le_add_left 1 _, inYear, Nat.le_refl 1, one_le_daysInMonth _ _⟩
    · exact ⟨Nat.le_refl 1, Nat.succ_le_succ (Nat.zero_le 11), Nat.le_refl 1,
        one_le_daysInMonth _ _⟩

/-- Within four hundred years, the year is found by a division that is one short at most. -/
theorem year_of_day {year day : Int} (first : 0 ≤ year) (last : year < 400) (start : 0 ≤ day)
    (within : day < daysInYear year) :
    (if daysBeforeYear ((daysBeforeYear year + day) / 366 + 1) ≤ daysBeforeYear year + day
      then (daysBeforeYear year + day) / 366 + 1
      else (daysBeforeYear year + day) / 366) = year := by
  have ends := daysBeforeYear_succ year
  generalize found : (daysBeforeYear year + day) / 366 = guess
  have near : guess = year ∨ guess + 1 = year := by
    simp only [daysBeforeYear] at *
    omega
  rcases near with rfl | rfl
  · rw [if_neg (by omega)]
  · rw [if_pos (by omega)]

theorem ofDay_toDay {d : Date} (valid : d.Valid) : Date.ofDay d.toDay = d := by
  have before := toDay_eq valid
  have within := ofYear_lt valid
  have month := monthOfDay_ofYear valid
  have day : d.ofYear - daysBeforeMonth (isLeapYear d.year) d.month + 1 = d.day := by
    have first := valid.2.2.1
    rw [Date.ofYear]
    omega
  obtain ⟨cycle, rest, split, least, most⟩ :
      ∃ cycle rest : Int, d.year = 400 * cycle + rest ∧ 0 ≤ rest ∧ rest < 400 :=
    ⟨d.year / 400, d.year % 400, by omega, by omega, by omega⟩
  have length : daysInYear d.year = daysInYear rest := by
    rw [daysInYear, daysInYear, split, isLeapYear_cycle]
  rw [split, daysBeforeYear_cycle] at before
  rw [length] at within
  have inCycle := year_of_day least most (Int.natCast_nonneg _) within
  have ends := daysBeforeYear_succ rest
  have bounds : 0 ≤ daysBeforeYear rest ∧ daysBeforeYear (rest + 1) ≤ 146097 := by
    rw [daysBeforeYear, daysBeforeYear]
    omega
  have cycles : (d.toDay + daysBeforeEpoch) / 146097 = cycle := by omega
  have days : (d.toDay + daysBeforeEpoch) % 146097 = daysBeforeYear rest + d.ofYear := by omega
  rw [Date.ofDay]
  simp only [cycles, days, inCycle, ← split, add_sub_cancel_left, Int.toNat_natCast, month, day]

/-! ### The numbers count the days -/

theorem toDay_epoch : Date.epoch.toDay = 0 := rfl

theorem DayNumber.valid_toDay {d : Date} {n : Int} (counted : DayNumber d n) :
    d.Valid ∧ d.toDay = n := by
  induction counted with
  | epoch => exact ⟨by decide, toDay_epoch⟩
  | next _ ih =>
      obtain ⟨valid, rfl⟩ := ih
      exact ⟨valid_next valid, toDay_next valid⟩
  | previous valid _ ih =>
      refine ⟨valid, ?_⟩
      have later := toDay_next valid
      omega

theorem valid_mk {year : Int} {month day : Nat} : (Date.mk year month day).Valid ↔
    1 ≤ month ∧ month ≤ 12 ∧ 1 ≤ day ∧ day ≤ daysInMonth year month := Iff.rfl

theorem next_mk (year : Int) (month day : Nat) : (Date.mk year month day).next =
    if day < daysInMonth year month then ⟨year, month, day + 1⟩
    else if month < 12 then ⟨year, month + 1, 1⟩ else ⟨year + 1, 1, 1⟩ := rfl

/-- Every day has a day before it. -/
theorem exists_next_eq {d : Date} (valid : d.Valid) : ∃ p : Date, p.Valid ∧ p.next = d := by
  obtain ⟨year, month, day⟩ := d
  obtain ⟨january, december, first, last⟩ := valid_mk.mp valid
  by_cases inMonth : 1 < day
  · refine ⟨⟨year, month, day - 1⟩, valid_mk.mpr ⟨january, december, by omega, by omega⟩, ?_⟩
    rw [next_mk, if_pos (by omega), Nat.sub_add_cancel first]
  obtain rfl : day = 1 := by omega
  by_cases inYear : 1 < month
  · refine ⟨⟨year, month - 1, daysInMonth year (month - 1)⟩,
      valid_mk.mpr ⟨by omega, by omega, one_le_daysInMonth _ _, Nat.le_refl _⟩, ?_⟩
    rw [next_mk, if_neg (Nat.lt_irrefl _), if_pos (by omega), Nat.sub_add_cancel january]
  · obtain rfl : month = 1 := by omega
    refine ⟨⟨year - 1, 12, daysInMonth (year - 1) 12⟩,
      valid_mk.mpr ⟨by omega, by omega, one_le_daysInMonth _ _, Nat.le_refl _⟩, ?_⟩
    rw [next_mk, if_neg (Nat.lt_irrefl _), if_neg (Nat.lt_irrefl 12), Int.sub_add_cancel]

/-- Every number is the number of a day. -/
theorem exists_dayNumber (n : Int) : ∃ d, DayNumber d n := by
  induction n using Int.induction_on with
  | zero => exact ⟨.epoch, .epoch⟩
  | succ n ih =>
      obtain ⟨d, counted⟩ := ih
      exact ⟨d.next, counted.next⟩
  | pred n ih =>
      obtain ⟨d, counted⟩ := ih
      obtain ⟨p, valid, rfl⟩ := exists_next_eq counted.valid_toDay.1
      refine ⟨p, .previous valid ?_⟩
      rw [Int.sub_add_cancel]
      exact counted

/-- The number of a date is what counting finds. -/
theorem dayNumber_iff {d : Date} {n : Int} : DayNumber d n ↔ d.Valid ∧ d.toDay = n := by
  refine ⟨DayNumber.valid_toDay, ?_⟩
  rintro ⟨valid, rfl⟩
  obtain ⟨other, counted⟩ := exists_dayNumber d.toDay
  obtain ⟨otherValid, same⟩ := counted.valid_toDay
  have equal := congrArg Date.ofDay same
  rw [ofDay_toDay otherValid, ofDay_toDay valid] at equal
  rw [← equal, same]
  rw [equal] at counted
  rwa [equal]

/-- The date of a number is the one that counting finds. -/
theorem dayNumber_ofDay (n : Int) : DayNumber (Date.ofDay n) n := by
  obtain ⟨d, counted⟩ := exists_dayNumber n
  obtain ⟨valid, same⟩ := counted.valid_toDay
  rw [← same, ofDay_toDay valid, same]
  exact counted

theorem valid_ofDay (n : Int) : (Date.ofDay n).Valid := (dayNumber_ofDay n).valid_toDay.1

@[simp] theorem toDay_ofDay (n : Int) : (Date.ofDay n).toDay = n :=
  (dayNumber_ofDay n).valid_toDay.2

end FleetBoard.Time
