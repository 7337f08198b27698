import FleetBoard.Proofs.Time.Layouts

/-!
# The ways in which log lines write a time

A grammar with one rule for each way of writing a date, a time of day and an offset. The layouts of
log lines accept its texts and no others.
-/

namespace FleetBoard.Time

/-- Year, month and day in figures, with the same character between them. -/
inductive DateForm (between : Char) (d : Date) : List Char → Prop
  | mk {year : Nat} {yyyy mm dd : List Char} (sameYear : d.year = year)
      (yearForm : Digits 4 year yyyy) (monthForm : Digits 2 d.month mm)
      (dayForm : Digits 2 d.day dd) :
      DateForm between d (yyyy ++ between :: (mm ++ between :: dd))

theorem DateForm.exists_year {between : Char} {d : Date} {s : List Char}
    (form : DateForm between d s) :
    ∃ n : Nat, d.year = n := by
  obtain ⟨same, -, -, -⟩ := form
  exact ⟨_, same⟩

/-- Hour, minute and second with colons between them, and perhaps a fraction of the second. -/
inductive ClockForm (k : Clock) : List Char → Prop
  | mk {hh mm ss fraction : List Char} (hourForm : Digits 2 k.hour hh)
      (minuteForm : Digits 2 k.minute mm) (secondForm : Digits 2 k.second ss)
      (fractionForm : FractionForm fraction k.nanos) :
      ClockForm k (hh ++ ':' :: (mm ++ ':' :: (ss ++ fraction)))

def MonthForm (month : Nat) (s : List Char) : Prop :=
  ∃ place, NameForm monthNames place s ∧ month = place + 1

def WeekdayForm (s : List Char) : Prop := ∃ place, NameForm weekdayNames place s

def YearForm (year : Int) (s : List Char) : Prop := ∃ n : Nat, year = n ∧ Digits 4 n s

/-- An offset of less than a day, in seconds ahead of universal time. -/
inductive ShiftForm (between : List Char) : Int → List Char → Prop
  | mk {behind : Bool} {hours minutes : Nat} {s : List Char}
      (form : OffsetForm between behind hours minutes s) (hour : hours < 24)
      (minute : minutes < 60) :
      ShiftForm between
        (if behind then -(3600 * hours + 60 * minutes : Nat)
          else (3600 * hours + 60 * minutes : Nat)) s

/-- What may follow date and time with a `T` between them. -/
inductive ZoneForm : Int → List Char → Prop
  | bare : ZoneForm 0 []
  | universal : ZoneForm 0 ['Z']
  | colon {offset : Int} {s : List Char} (form : ShiftForm [':'] offset s) : ZoneForm offset s
  | plain {offset : Int} {s : List Char} (form : ShiftForm [] offset s) : ZoneForm offset s

/-- The texts that write a date, a time of day and the seconds that the zone is ahead. -/
inductive Written (d : Date) (k : Clock) : Int → List Char → Prop
  | iso {offset : Int} {date clock zone : List Char} (dateForm : DateForm '-' d date)
      (clockForm : ClockForm k clock) (zoneForm : ZoneForm offset zone) :
      Written d k offset (date ++ 'T' :: (clock ++ zone))
  | spaced {date clock : List Char} (dateForm : DateForm '-' d date)
      (clockForm : ClockForm k clock) :
      Written d k 0 (date ++ ' ' :: clock)
  | slashed {date clock : List Char} (dateForm : DateForm '/' d date)
      (clockForm : ClockForm k clock) :
      Written d k 0 (date ++ ' ' :: clock)
  | commonLog {offset : Int} {day month year clock zone : List Char} (dayForm : Digits 2 d.day day)
      (monthForm : MonthForm d.month month) (yearForm : YearForm d.year year)
      (clockForm : ClockForm k clock) (zoneForm : ShiftForm [] offset zone) :
      Written d k offset (day ++ '/' :: (month ++ '/' :: (year ++ ':' :: (clock ++ ' ' :: zone))))
  | ansiC {weekday month day clock year : List Char} (weekdayForm : WeekdayForm weekday)
      (monthForm : MonthForm d.month month) (dayForm : LooseDayForm d.day day)
      (clockForm : ClockForm k clock) (yearForm : YearForm d.year year) :
      Written d k 0 (weekday ++ ' ' :: (month ++ (day ++ ' ' :: (clock ++ ' ' :: year))))
  | unixDate {weekday month day clock zone year : List Char} (weekdayForm : WeekdayForm weekday)
      (monthForm : MonthForm d.month month) (dayForm : LooseDayForm d.day day)
      (clockForm : ClockForm k clock) (zoneForm : ZoneNameForm zone)
      (yearForm : YearForm d.year year) :
      Written d k 0
        (weekday ++ ' ' :: (month ++ (day ++ ' ' :: (clock ++ ' ' :: (zone ++ ' ' :: year)))))
  | rubyDate {offset : Int} {weekday month day clock zone year : List Char}
      (weekdayForm : WeekdayForm weekday) (monthForm : MonthForm d.month month)
      (dayForm : Digits 2 d.day day) (clockForm : ClockForm k clock)
      (zoneForm : ShiftForm [] offset zone) (yearForm : YearForm d.year year) :
      Written d k offset
        (weekday ++ ' ' ::
          (month ++ ' ' :: (day ++ ' ' :: (clock ++ ' ' :: (zone ++ ' ' :: year)))))

/-! ### Groups of pieces -/

namespace Layout

variable {l : Layout} {f g : Fields} {s : List Char}

theorem writes_lit_cons_iff {c : Char} :
    Layout.Writes (.lit c :: l) f s g ↔ ∃ rest, s = c :: rest ∧ l.Writes f rest g := by
  rw [writes_cons_iff]
  constructor
  · rintro ⟨w, rest, e, rfl, first, later⟩
    obtain ⟨rfl, rfl⟩ := Piece.writes_lit_iff.mp first
    exact ⟨rest, rfl, later⟩
  · rintro ⟨rest, rfl, later⟩
    exact ⟨[c], rest, f, rfl, .lit c, later⟩

theorem writes_number_cons_iff {p : Piece} {width : Nat} {set : Fields → Nat → Fields}
    (kind : p.number? = some (width, set)) : Layout.Writes (p :: l) f s g ↔
      ∃ w rest n, s = w ++ rest ∧ Digits width n w ∧ l.Writes (set f n) rest g := by
  rw [writes_cons_iff]
  constructor
  · rintro ⟨w, rest, e, rfl, first, later⟩
    obtain ⟨n, form, rfl⟩ := (Piece.writes_number_iff kind).mp first
    exact ⟨w, rest, n, rfl, form, later⟩
  · rintro ⟨w, rest, n, rfl, form, later⟩
    exact ⟨w, rest, _, rfl, .number kind form, later⟩

theorem writes_ymd_iff {c : Char} :
    (ymd c ++ l).Writes f s g ↔ ∃ w rest year month day, s = w ++ rest ∧
    DateForm c ⟨(year : Nat), month, day⟩ w ∧
    l.Writes { f with year := year, month := month, day := day } rest g := by
  simp only [ymd, List.cons_append, List.nil_append, writes_lit_cons_iff,
    writes_number_cons_iff (p := .year) rfl, writes_number_cons_iff (p := .month) rfl,
      writes_number_cons_iff (p := .day) rfl]
  constructor
  · rintro ⟨yyyy, _, year, rfl, yearForm, _, rfl, mm, _, month, rfl, monthForm, _, rfl, dd, rest,
      day, rfl, dayForm, written⟩
    exact ⟨_, rest, year, month, day, by simp, .mk rfl yearForm monthForm dayForm, written⟩
  · rintro ⟨_, rest, year, month, day, rfl, ⟨same, yearForm, monthForm, dayForm⟩, written⟩
    obtain rfl := Int.ofNat.inj same
    simp only [List.append_assoc, List.cons_append]
    exact ⟨_, _, year, rfl, yearForm, _, rfl, _, _, month, rfl, monthForm, _, rfl, _, _, day, rfl,
      dayForm, written⟩

theorem writes_hms_iff (plain : f.nanos = 0) : (hms ++ l).Writes f s g ↔ ∃ w rest k, s = w ++ rest ∧
    ClockForm k w ∧ l.Writes { f with
      hour := k.hour, minute := k.minute, second := k.second, nanos := k.nanos } rest g := by
  simp only [hms, List.cons_append, List.nil_append, writes_lit_cons_iff,
    writes_number_cons_iff (p := .hour) rfl, writes_number_cons_iff (p := .minute) rfl,
      writes_number_cons_iff (p := .second) rfl]
  constructor
  · rintro ⟨hh, _, hour, rfl, hourForm, _, rfl, mm, _, minute, rfl, minuteForm, _, rfl, ss, _,
      second, rfl, secondForm, written⟩
    obtain ⟨fraction, rest, e, rfl, first, written⟩ := writes_cons_iff.mp written
    obtain ⟨nanos, fractionForm, rfl⟩ := (Piece.writes_fraction_iff (f :=
      { f with hour := hour, minute := minute, second := second }) plain).mp first
    exact ⟨_, rest, ⟨hour, minute, second, nanos⟩, by simp,
      .mk hourForm minuteForm secondForm fractionForm, written⟩
  · rintro ⟨_, rest, ⟨hour, minute, second, nanos⟩, rfl,
      ⟨hourForm, minuteForm, secondForm, fractionForm⟩, written⟩
    have front := (Piece.writes_fraction_iff (f :=
      { f with hour := hour, minute := minute, second := second }) plain).mpr
        ⟨nanos, fractionForm, rfl⟩
    simp only [List.append_assoc, List.cons_append]
    exact ⟨_, _, hour, rfl, hourForm, _, rfl, _, _, minute, rfl, minuteForm, _, rfl, _, _, second,
      rfl, secondForm, writes_cons_iff.mpr ⟨_, _, _, rfl, front, written⟩⟩

end Layout

/-! ### The layouts of log lines -/

/-- What the fields say of date, time of day and offset. -/
structure Fields.Tells (f : Fields) (d : Date) (k : Clock) (offset : Int) : Prop where
  date : f.date = d
  clock : f.clock = k
  offset : f.offset = offset
  hour : f.offsetHour < 24
  minute : f.offsetMinute < 60

def Fields.shown (year month day : Nat) (k : Clock) : Fields :=
  { year := year, month := month, day := day
    hour := k.hour, minute := k.minute, second := k.second, nanos := k.nanos }

theorem Fields.tells_shown (year month day : Nat) (k : Clock) :
    (Fields.shown year month day k).Tells ⟨year, month, day⟩ k 0 :=
  ⟨rfl, rfl, rfl, Nat.succ_pos 23, Nat.succ_pos 59⟩

namespace Layout

variable {l : Layout} {f g : Fields} {d : Date} {k : Clock} {offset : Int} {s : List Char}

theorem writes_dateT_iff : (dateT ++ l).Writes {} s g ↔ ∃ date clock zone year month day k,
    s = date ++ 'T' :: (clock ++ zone) ∧ DateForm '-' ⟨(year : Nat), month, day⟩ date ∧
      ClockForm k clock ∧ l.Writes (.shown year month day k) zone g := by
  rw [dateT, List.append_assoc, List.cons_append, writes_ymd_iff]
  simp only [writes_lit_cons_iff]
  constructor
  · rintro ⟨date, _, year, month, day, rfl, dateForm, _, rfl, written⟩
    obtain ⟨clock, zone, k, rfl, clockForm, written⟩ := (writes_hms_iff rfl).mp written
    exact ⟨date, clock, zone, year, month, day, k, rfl, dateForm, clockForm, written⟩
  · rintro ⟨date, clock, zone, year, month, day, k, rfl, dateForm, clockForm, written⟩
    exact ⟨date, _, year, month, day, rfl, dateForm, _, rfl,
      (writes_hms_iff rfl).mpr ⟨clock, zone, k, rfl, clockForm, written⟩⟩

/-- Date and time of day with a space between them. -/
theorem writes_spaced_iff {c : Char} : Layout.Writes (ymd c ++ .lit ' ' :: hms) {} s g ↔
    ∃ date clock year month day k, s = date ++ ' ' :: clock ∧
      DateForm c ⟨(year : Nat), month, day⟩ date ∧ ClockForm k clock ∧
      g = .shown year month day k := by
  rw [writes_ymd_iff]
  simp only [writes_lit_cons_iff]
  rw [← List.append_nil hms]
  constructor
  · rintro ⟨date, _, year, month, day, rfl, dateForm, _, rfl, written⟩
    obtain ⟨clock, _, k, rfl, clockForm, written⟩ := (writes_hms_iff rfl).mp written
    obtain ⟨rfl, rfl⟩ := writes_nil_iff.mp written
    exact ⟨date, clock, year, month, day, k, by rw [List.append_nil], dateForm, clockForm, rfl⟩
  · rintro ⟨date, clock, year, month, day, k, rfl, dateForm, clockForm, rfl⟩
    exact ⟨date, _, year, month, day, rfl, dateForm, _, rfl,
      (writes_hms_iff rfl).mpr ⟨clock, [], k, (List.append_nil clock).symm, clockForm, .nil⟩⟩

/-- The names of day and month before a day in figures. -/
theorem writes_named_iff : Layout.Writes (.weekday :: .lit ' ' :: .monthName :: l) {} s g ↔
    ∃ weekday name rest month, s = weekday ++ ' ' :: (name ++ rest) ∧ WeekdayForm weekday ∧
      MonthForm month name ∧ l.Writes { month := month } rest g := by
  simp only [writes_cons_iff, Piece.writes_lit_iff, Piece.writes_weekday_iff,
    Piece.writes_monthName_iff]
  constructor
  · rintro ⟨weekday, _, _, rfl, ⟨weekdayForm, rfl⟩, _, _, _, rfl, ⟨rfl, rfl⟩, name, rest, _, rfl,
      ⟨place, form, rfl⟩, written⟩
    exact ⟨weekday, name, rest, place + 1, rfl, weekdayForm, ⟨place, form, rfl⟩, written⟩
  · rintro ⟨weekday, name, rest, _, rfl, weekdayForm, ⟨place, form, rfl⟩, written⟩
    exact ⟨weekday, _, _, rfl, ⟨weekdayForm, rfl⟩, [' '], _, _, rfl, ⟨rfl, rfl⟩, name, rest, _, rfl,
      ⟨place, form, rfl⟩, written⟩

/-- An offset, and what comes after it. -/
theorem writes_offset_cons_iff :
    Layout.Writes (.offset :: l) f s g ↔ ∃ w rest behind h m, s = w ++ rest ∧
      OffsetForm [] behind h m w ∧
      l.Writes { f with behind := behind, offsetHour := h, offsetMinute := m } rest g := by
  simp only [writes_cons_iff, Piece.writes_offset_iff]
  constructor
  · rintro ⟨w, rest, _, rfl, ⟨behind, h, m, form, rfl⟩, written⟩
    exact ⟨w, rest, behind, h, m, rfl, form, written⟩
  · rintro ⟨w, rest, behind, h, m, rfl, form, written⟩
    exact ⟨w, rest, _, rfl, ⟨behind, h, m, form, rfl⟩, written⟩

/-- The year as the last piece. -/
theorem writes_year_iff : Layout.Writes [.year] f s g ↔
    ∃ n : Nat, Digits 4 n s ∧ g = { f with year := n } := by
  rw [writes_number_cons_iff rfl]
  constructor
  · rintro ⟨w, _, n, rfl, form, written⟩
    obtain ⟨rfl, rfl⟩ := writes_nil_iff.mp written
    exact ⟨n, by rwa [List.append_nil], rfl⟩
  · rintro ⟨n, form, rfl⟩
    exact ⟨s, [], n, (List.append_nil s).symm, form, .nil⟩

/-- The names of day and month, a loose day and the time of day. -/
theorem writes_looseDate_iff :
    Layout.Writes
        ([.weekday, .lit ' ', .monthName, .looseDay, .lit ' '] ++ hms ++ .lit ' ' :: l) {} s g ↔
      ∃ weekday name day clock rest month n k,
        s = weekday ++ ' ' :: (name ++ (day ++ ' ' :: (clock ++ ' ' :: rest))) ∧
        WeekdayForm weekday ∧ MonthForm month name ∧ LooseDayForm n day ∧ ClockForm k clock ∧
        l.Writes (.shown 0 month n k) rest g := by
  simp only [List.cons_append, List.nil_append, writes_named_iff, writes_cons_iff (p := .looseDay),
    Piece.writes_looseDay_iff, writes_lit_cons_iff]
  constructor
  · rintro ⟨weekday, name, _, month, rfl, weekdayForm, monthForm, day, _, _, rfl, ⟨n, dayForm, rfl⟩,
      _, rfl, written⟩
    obtain ⟨clock, _, k, rfl, clockForm, back⟩ := (writes_hms_iff rfl).mp written
    obtain ⟨rest, rfl, last⟩ := writes_lit_cons_iff.mp back
    exact ⟨weekday, name, day, clock, rest, month, n, k, rfl, weekdayForm, monthForm, dayForm,
      clockForm, last⟩
  · rintro ⟨weekday, name, day, clock, rest, month, n, k, rfl, weekdayForm, monthForm, dayForm,
      clockForm, written⟩
    exact ⟨weekday, name, _, month, rfl, weekdayForm, monthForm, day, _, _, rfl, ⟨n, dayForm, rfl⟩,
      _, rfl, (writes_hms_iff rfl).mpr
        ⟨clock, _, k, rfl, clockForm, writes_lit_cons_iff.mpr ⟨rest, rfl, written⟩⟩⟩

theorem writes_commonLog_iff : Layout.Writes
    ([.day, .lit '/', .monthName, .lit '/', .year, .lit ':'] ++ hms ++ [.lit ' ', .offset]) {} s g ↔
      ∃ day name yyyy clock zone n month year k behind h m,
        s = day ++ '/' :: (name ++ '/' :: (yyyy ++ ':' :: (clock ++ ' ' :: zone))) ∧
        Digits 2 n day ∧ MonthForm month name ∧ Digits 4 year yyyy ∧ ClockForm k clock ∧
        OffsetForm [] behind h m zone ∧
        g = { Fields.shown year month n k with
          behind := behind, offsetHour := h, offsetMinute := m } := by
  simp only [List.cons_append, List.nil_append, writes_number_cons_iff (p := .day) rfl,
    writes_number_cons_iff (p := .year) rfl, writes_cons_iff (p := .monthName),
    Piece.writes_monthName_iff, writes_lit_cons_iff]
  constructor
  · rintro ⟨day, _, n, rfl, dayForm, _, rfl, name, _, _, rfl, ⟨place, form, rfl⟩, _, rfl, yyyy, _,
      year, rfl, yearForm, _, rfl, written⟩
    obtain ⟨clock, _, k, rfl, clockForm, back⟩ := (writes_hms_iff rfl).mp written
    obtain ⟨_, rfl, last⟩ := writes_lit_cons_iff.mp back
    obtain ⟨zone, _, behind, h, m, rfl, zoneForm, done⟩ := writes_offset_cons_iff.mp last
    obtain ⟨rfl, rfl⟩ := writes_nil_iff.mp done
    exact ⟨day, name, yyyy, clock, zone, n, _, year, k, behind, h, m,
      by rw [List.append_nil], dayForm, ⟨place, form, rfl⟩, yearForm, clockForm, zoneForm, rfl⟩
  · rintro ⟨day, name, yyyy, clock, zone, n, _, year, k, behind, h, m, rfl, dayForm,
      ⟨place, form, rfl⟩, yearForm, clockForm, zoneForm, rfl⟩
    exact ⟨day, _, n, rfl, dayForm, _, rfl, name, _, _, rfl, ⟨place, form, rfl⟩, _, rfl, yyyy, _,
      year, rfl, yearForm, _, rfl, (writes_hms_iff rfl).mpr
        ⟨clock, _, k, rfl, clockForm, writes_lit_cons_iff.mpr ⟨_, rfl, writes_offset_cons_iff.mpr
          ⟨zone, [], behind, h, m, (List.append_nil zone).symm, zoneForm, .nil⟩⟩⟩⟩

theorem writes_rubyDate_iff :
    Layout.Writes ([.weekday, .lit ' ', .monthName, .lit ' ', .day, .lit ' '] ++ hms ++
    [.lit ' ', .offset, .lit ' ', .year]) {} s g ↔
      ∃ weekday name day clock zone yyyy month n k behind h m year,
        s = weekday ++ ' ' ::
          (name ++ ' ' :: (day ++ ' ' :: (clock ++ ' ' :: (zone ++ ' ' :: yyyy)))) ∧
        WeekdayForm weekday ∧ MonthForm month name ∧ Digits 2 n day ∧ ClockForm k clock ∧
        OffsetForm [] behind h m zone ∧ Digits 4 year yyyy ∧
        g = { Fields.shown year month n k with
          behind := behind, offsetHour := h, offsetMinute := m } := by
  simp only [List.cons_append, List.nil_append, writes_named_iff, writes_lit_cons_iff,
    writes_number_cons_iff (p := .day) rfl]
  constructor
  · rintro ⟨weekday, name, _, month, rfl, weekdayForm, monthForm, _, rfl, day, _, n, rfl, dayForm,
      _, rfl, written⟩
    obtain ⟨clock, _, k, rfl, clockForm, back⟩ := (writes_hms_iff rfl).mp written
    obtain ⟨_, rfl, offset⟩ := writes_lit_cons_iff.mp back
    obtain ⟨zone, _, behind, h, m, rfl, zoneForm, after⟩ := writes_offset_cons_iff.mp offset
    obtain ⟨yyyy, rfl, last⟩ := writes_lit_cons_iff.mp after
    obtain ⟨year, yearForm, rfl⟩ := writes_year_iff.mp last
    exact ⟨weekday, name, day, clock, zone, yyyy, month, n, k, behind, h, m, year, rfl, weekdayForm,
      monthForm, dayForm, clockForm, zoneForm, yearForm, rfl⟩
  · rintro ⟨weekday, name, day, clock, zone, yyyy, month, n, k, behind, h, m, year, rfl,
      weekdayForm, monthForm, dayForm, clockForm, zoneForm, yearForm, rfl⟩
    exact ⟨weekday, name, _, month, rfl, weekdayForm, monthForm, _, rfl, day, _, n, rfl, dayForm, _,
      rfl, (writes_hms_iff rfl).mpr ⟨clock, _, k, rfl, clockForm, writes_lit_cons_iff.mpr
        ⟨_, rfl, writes_offset_cons_iff.mpr ⟨zone, _, behind, h, m, rfl, zoneForm,
          writes_lit_cons_iff.mpr ⟨yyyy, rfl, writes_year_iff.mpr ⟨year, yearForm, rfl⟩⟩⟩⟩⟩⟩

/-- A text of one of the layouts is written in one of the ways. -/
theorem written_of_writes (inside : l ∈ ofLogs) (written : l.Writes {} s f)
    (tells : f.Tells d k offset) :
    Written d k offset s := by
  obtain ⟨rfl, rfl, rfl, hour, minute⟩ := tells
  simp only [ofLogs, List.mem_cons, List.not_mem_nil, or_false] at inside
  rcases inside with rfl | rfl | rfl | rfl | rfl | rfl | rfl | rfl | rfl | rfl
  · obtain ⟨date, clock, _, year, month, day, k, rfl, dateForm, clockForm, last⟩ :=
      writes_dateT_iff.mp written
    obtain ⟨_, rfl, done⟩ := writes_lit_cons_iff.mp last
    obtain ⟨rfl, rfl⟩ := writes_nil_iff.mp done
    exact .iso dateForm clockForm .universal
  · obtain ⟨date, clock, _, year, month, day, k, rfl, dateForm, clockForm, last⟩ :=
      writes_dateT_iff.mp written
    obtain ⟨zone, _, _, rfl, offset, done⟩ := writes_cons_iff.mp last
    obtain ⟨behind, h, m, form, rfl⟩ := Piece.writes_offsetColon_iff.mp offset
    obtain ⟨rfl, rfl⟩ := writes_nil_iff.mp done
    rw [List.append_nil]
    exact .iso dateForm clockForm (.colon (.mk form hour minute))
  · obtain ⟨date, clock, _, year, month, day, k, rfl, dateForm, clockForm, last⟩ :=
      writes_dateT_iff.mp written
    obtain ⟨zone, _, behind, h, m, rfl, form, done⟩ := writes_offset_cons_iff.mp last
    obtain ⟨rfl, rfl⟩ := writes_nil_iff.mp done
    rw [List.append_nil]
    exact .iso dateForm clockForm (.plain (.mk form hour minute))
  · rw [← List.append_nil dateT] at written
    obtain ⟨date, clock, _, year, month, day, k, rfl, dateForm, clockForm, done⟩ :=
      writes_dateT_iff.mp written
    obtain ⟨rfl, rfl⟩ := writes_nil_iff.mp done
    exact .iso dateForm clockForm .bare
  · obtain ⟨date, clock, year, month, day, k, rfl, dateForm, clockForm, rfl⟩ :=
      writes_spaced_iff.mp written
    exact .spaced dateForm clockForm
  · obtain ⟨date, clock, year, month, day, k, rfl, dateForm, clockForm, rfl⟩ :=
      writes_spaced_iff.mp written
    exact .slashed dateForm clockForm
  · obtain ⟨day, name, yyyy, clock, zone, n, month, year, k, behind, h, m, rfl, dayForm, monthForm,
      yearForm, clockForm, zoneForm, rfl⟩ := writes_commonLog_iff.mp written
    exact .commonLog dayForm monthForm ⟨year, rfl, yearForm⟩ clockForm (.mk zoneForm hour minute)
  · obtain ⟨weekday, name, day, clock, yyyy, month, n, k, rfl, weekdayForm, monthForm, dayForm,
      clockForm, last⟩ := writes_looseDate_iff.mp written
    obtain ⟨year, yearForm, rfl⟩ := writes_year_iff.mp last
    exact .ansiC weekdayForm monthForm dayForm clockForm ⟨year, rfl, yearForm⟩
  · obtain ⟨weekday, name, day, clock, _, month, n, k, rfl, weekdayForm, monthForm, dayForm,
      clockForm, last⟩ := writes_looseDate_iff.mp written
    obtain ⟨zone, _, _, rfl, abbreviation, after⟩ := writes_cons_iff.mp last
    obtain ⟨zoneForm, rfl⟩ := Piece.writes_zoneName_iff.mp abbreviation
    obtain ⟨yyyy, rfl, figures⟩ := writes_lit_cons_iff.mp after
    obtain ⟨year, yearForm, rfl⟩ := writes_year_iff.mp figures
    exact .unixDate weekdayForm monthForm dayForm clockForm zoneForm ⟨year, rfl, yearForm⟩
  · obtain ⟨weekday, name, day, clock, zone, yyyy, month, n, k, behind, h, m, year, rfl,
      weekdayForm, monthForm, dayForm, clockForm, zoneForm, yearForm, rfl⟩ :=
      writes_rubyDate_iff.mp written
    exact .rubyDate weekdayForm monthForm dayForm clockForm (.mk zoneForm hour minute)
      ⟨year, rfl, yearForm⟩

/-- A text that is written in one of the ways has one of the layouts. -/
theorem exists_layout_of_written (written : Written d k offset s) :
    ∃ l ∈ ofLogs, ∃ f, l.Writes {} s f ∧ f.Tells d k offset := by
  obtain ⟨year, month, day⟩ := d
  cases written with
  | iso dateForm clockForm zoneForm =>
      obtain ⟨year, rfl⟩ := dateForm.exists_year
      have dated {l : Layout} {g : Fields} {zone : List Char}
          (last : l.Writes (.shown year month day k) zone g) :=
        writes_dateT_iff.mpr ⟨_, _, _, year, month, day, k, rfl, dateForm, clockForm, last⟩
      cases zoneForm with
      | bare =>
          refine ⟨_, List.mem_of_getElem? (i := 3) rfl, _, ?_, Fields.tells_shown year month day k⟩
          rw [← List.append_nil dateT]
          exact dated .nil
      | universal =>
          exact ⟨_, List.mem_of_getElem? (i := 0) rfl, _,
            dated (writes_lit_cons_iff.mpr ⟨_, rfl, .nil⟩), Fields.tells_shown year month day k⟩
      | colon form =>
          obtain ⟨form, hour, minute⟩ := form
          exact ⟨_, List.mem_of_getElem? (i := 1) rfl, _,
            dated (writes_cons_iff.mpr
              ⟨_, [], _, (List.append_nil _).symm, .offsetColon form, .nil⟩),
            ⟨rfl, rfl, rfl, hour, minute⟩⟩
      | plain form =>
          obtain ⟨form, hour, minute⟩ := form
          exact ⟨_, List.mem_of_getElem? (i := 2) rfl, _,
            dated (writes_cons_iff.mpr ⟨_, [], _, (List.append_nil _).symm, .offset form, .nil⟩),
            ⟨rfl, rfl, rfl, hour, minute⟩⟩
  | spaced dateForm clockForm =>
      obtain ⟨year, rfl⟩ := dateForm.exists_year
      exact ⟨_, List.mem_of_getElem? (i := 4) rfl, _, writes_spaced_iff.mpr
        ⟨_, _, year, month, day, k, rfl, dateForm, clockForm, rfl⟩,
        Fields.tells_shown year month day k⟩
  | slashed dateForm clockForm =>
      obtain ⟨year, rfl⟩ := dateForm.exists_year
      exact ⟨_, List.mem_of_getElem? (i := 5) rfl, _, writes_spaced_iff.mpr
        ⟨_, _, year, month, day, k, rfl, dateForm, clockForm, rfl⟩,
        Fields.tells_shown year month day k⟩
  | commonLog dayForm monthForm yearForm clockForm zoneForm =>
      obtain ⟨year, rfl, yearForm⟩ := yearForm
      obtain ⟨form, hour, minute⟩ := zoneForm
      exact ⟨_, List.mem_of_getElem? (i := 6) rfl, _,
        writes_commonLog_iff.mpr ⟨_, _, _, _, _, day, month, year, k, _, _, _, rfl, dayForm,
          monthForm, yearForm, clockForm, form, rfl⟩, ⟨rfl, rfl, rfl, hour, minute⟩⟩
  | ansiC weekdayForm monthForm dayForm clockForm yearForm =>
      obtain ⟨year, rfl, yearForm⟩ := yearForm
      exact ⟨_, List.mem_of_getElem? (i := 7) rfl, _,
        writes_looseDate_iff.mpr ⟨_, _, _, _, _, month, day, k, rfl, weekdayForm, monthForm,
          dayForm, clockForm, writes_year_iff.mpr ⟨year, yearForm, rfl⟩⟩,
        Fields.tells_shown year month day k⟩
  | unixDate weekdayForm monthForm dayForm clockForm zoneForm yearForm =>
      obtain ⟨year, rfl, yearForm⟩ := yearForm
      exact ⟨_, List.mem_of_getElem? (i := 8) rfl, _,
        writes_looseDate_iff.mpr ⟨_, _, _, _, _, month, day, k, rfl, weekdayForm, monthForm,
          dayForm, clockForm, writes_cons_iff.mpr ⟨_, _, _, rfl, .zoneName zoneForm,
            writes_lit_cons_iff.mpr ⟨_, rfl, writes_year_iff.mpr ⟨year, yearForm, rfl⟩⟩⟩⟩,
        Fields.tells_shown year month day k⟩
  | rubyDate weekdayForm monthForm dayForm clockForm zoneForm yearForm =>
      obtain ⟨year, rfl, yearForm⟩ := yearForm
      obtain ⟨form, hour, minute⟩ := zoneForm
      exact ⟨_, List.mem_of_getElem? (i := 9) rfl, _,
        writes_rubyDate_iff.mpr ⟨_, _, _, _, _, _, month, day, k, _, _, _, year, rfl, weekdayForm,
          monthForm, dayForm, clockForm, form, yearForm, rfl⟩, ⟨rfl, rfl, rfl, hour, minute⟩⟩

end Layout

end FleetBoard.Time
